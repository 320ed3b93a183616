import RunControl.Proofs.Decoding
import RunControl.Proofs.Json.Rearranging

namespace RunControl

open Json Json.Record

namespace CpuState

theorem unordered_readTag : Unordered readTag := by
  have hvariants : ∀ v ∈ tags, v.Unordered := by
    simp only [tags, List.forall_mem_cons]
    exact ⟨Variant.unordered_unit _ _, Variant.unordered_unit _ _, Variant.unordered_unit _ _,
      Variant.unordered_unit _ _, Variant.unordered_unit _ _, List.forall_mem_nil _⟩
  exact (Variant.unordered_decode hvariants).within (.name "state")

theorem unordered_withDetail (tag : Tag) : Unordered tag.withDetail := by
  cases tag with
  | running => exact (unordered_unit _).map _
  | blocked => exact (unordered_unit _).map _
  | debugBreak => exact (unordered_unit _).map _
  | exit => exact unordered_word32.map _
  | error => exact unordered_string.map _

theorem unordered_readListedTag : Unordered readListedTag :=
  unordered_of_flat (fun _ _ => nofun) fun _ _ => nofun

inductive Shows : Members → List (Part × Node) → Prop where
  | closed : Shows .closed []
  | part (p : Part) (n : Node) {r : Members} {ps : List (Part × Node)} (h : Shows r ps) :
      Shows (.cons (some p.name) n r) ((p, n) :: ps)
  | other {k : String} {n : Node} {r : Members} {ps : List (Part × Node)} (hk : ∀ p : Part, k ≠ p.name)
      (hn : n.intact = true) (h : Shows r ps) : Shows (.cons (some k) n r) ps

theorem nextPart_part (p : Part) (n : Node) (r : Members) :
    nextPart (.cons (some p.name) n r) = .ok (some (p, n, r)) := by
  cases p with
  | state => rfl
  | detail => rfl

theorem nextPart_other {k : String} (hk : ∀ p : Part, k ≠ p.name) {n : Node} (hn : n.intact = true)
    (r : Members) : nextPart (.cons (some k) n r) = nextPart r := by
  have hstate : k ≠ "state" := hk .state
  have hdetail : k ≠ "detail" := hk .detail
  rw [nextPart, if_neg hstate, if_neg hdetail, if_pos hn]

theorem ne_name {k : String} (hstate : k ≠ "state") (hdetail : k ≠ "detail") (p : Part) : k ≠ p.name := by
  cases p with
  | state => exact hstate
  | detail => exact hdetail

theorem nextPart_eq_none_iff {members : Members} : nextPart members = .ok none ↔ Shows members [] := by
  constructor
  · intro h
    fun_induction nextPart members with
    | case1 => exact .closed
    | case2 => cases h
    | case3 => cases h
    | case4 k n r hstate hdetail hn ih => exact .other (ne_name hstate hdetail) hn (ih h)
    | case5 => cases h
    | case6 => cases h
  · intro h
    generalize hps : ([] : List (Part × Node)) = ps at h
    induction h with
    | closed => rfl
    | part => cases hps
    | other hk hn _ ih => rw [nextPart_other hk hn, ih hps]

theorem Shows.of_nextPart {members rest : Members} {p : Part} {n : Node} {ps : List (Part × Node)}
    (hrest : Shows rest ps) (h : nextPart members = .ok (some (p, n, rest))) : Shows members ((p, n) :: ps) := by
  fun_induction nextPart members with
  | case1 => cases h
  | case2 n r =>
      cases h
      exact .part .state n hrest
  | case3 n r =>
      cases h
      exact .part .detail n hrest
  | case4 k n r hstate hdetail hn ih => exact .other (ne_name hstate hdetail) hn (ih h)
  | case5 => cases h
  | case6 => cases h

theorem Shows.exists_nextPart {members : Members} {p : Part} {n : Node} {ps : List (Part × Node)}
    (h : Shows members ((p, n) :: ps)) : ∃ rest, nextPart members = .ok (some (p, n, rest)) ∧ Shows rest ps := by
  generalize hqs : (p, n) :: ps = qs at h
  induction h with
  | closed => cases hqs
  | @part q m r _ h =>
      cases hqs
      exact ⟨r, nextPart_part p n r, h⟩
  | other hk hn _ ih =>
      rw [nextPart_other hk hn]
      exact ih hqs

inductive Makes : List (Part × Node) → CpuState → Prop where
  | alone {n : Node} {tag : Tag} {s : CpuState} (htag : readTag n = .ok tag) (hs : tag.alone = .ok s) :
      Makes [(.state, n)] s
  | after {n d : Node} {tag : Tag} {s : CpuState} (htag : readTag n = .ok tag) (hs : tag.withDetail d = .ok s) :
      Makes [(.state, n), (.detail, d)] s
  | before {n d : Node} {tag : Tag} {s : CpuState} (htag : readTag n = .ok tag) (hs : tag.withDetail d = .ok s) :
      Makes [(.detail, d), (.state, n)] s

theorem bufferable_of_natural {bound : Nat} {expected : String} {d : Node} {k : Nat}
    (h : Decoder.natural bound expected d = .ok k) (room : Nat) : d.bufferable room = true := by
  cases d with
  | num lexeme =>
      rw [Decoder.natural] at h
      rw [Node.bufferable]
      cases hn : Number.ofLexeme? lexeme with
      | none =>
          rw [hn] at h
          cases h
      | some x => rfl
  | _ => cases h

-- a detail that is right for its state is flat, so it may wait at any depth
theorem bufferable_of_withDetail {tag : Tag} {d : Node} {s : CpuState} (h : tag.withDetail d = .ok s)
    (room : Nat) : d.bufferable room = true := by
  have hnull {expected : String} {t : CpuState} (h : ((Decoder.unit expected d).map fun _ => t) = .ok s) :
      d.bufferable room = true := by
    cases d with
    | null => rfl
    | _ => cases h
  cases tag with
  | running => exact hnull h
  | blocked => exact hnull h
  | debugBreak => exact hnull h
  | exit =>
      obtain ⟨code, hcode, -⟩ := map_eq_ok_iff.mp h
      obtain ⟨k, hk, -⟩ := map_eq_ok_iff.mp hcode
      exact bufferable_of_natural hk room
  | error =>
      cases d with
      | str text =>
          cases text with
          | some message => rfl
          | none => cases h
      | _ => cases h

theorem finish_eq_ok_iff {s t : CpuState} {rest : Members} :
    finish s rest = .ok t ↔ Shows rest [] ∧ s = t := by
  rw [← nextPart_eq_none_iff]
  constructor
  · intro h
    obtain ⟨next, hnext, h⟩ := bind_eq_ok_iff.mp h
    cases next with
    | none =>
        cases h
        exact ⟨hnext, rfl⟩
    | some next => cases h
  · rintro ⟨hnext, rfl⟩
    exact bind_eq_ok_iff.mpr ⟨none, hnext, rfl⟩

theorem exists_shows_of_ofMembers {room : Nat} {members : Members} {s : CpuState}
    (h : ofMembers room members = .ok s) : ∃ ps, Shows members ps ∧ Makes ps s := by
  obtain ⟨next, hnext, h⟩ := bind_eq_ok_iff.mp h
  match next with
  | none => cases h
  | some (.state, n, rest) =>
      obtain ⟨tag, htag, h⟩ := bind_eq_ok_iff.mp h
      obtain ⟨next, hnext', h⟩ := bind_eq_ok_iff.mp h
      match next with
      | none => exact ⟨_, .of_nextPart (nextPart_eq_none_iff.mp hnext') hnext, .alone htag h⟩
      | some (.state, _, _) => cases h
      | some (.detail, d, rest') =>
          obtain ⟨t, ht, h⟩ := bind_eq_ok_iff.mp h
          obtain ⟨hrest, rfl⟩ := finish_eq_ok_iff.mp h
          exact ⟨_, .of_nextPart (.of_nextPart hrest hnext') hnext, .after htag (within_eq_ok_iff.mp ht)⟩
  | some (.detail, d, rest) =>
      simp only at h
      split at h
      · obtain ⟨next, hnext', h⟩ := bind_eq_ok_iff.mp h
        match next with
        | none => cases h
        | some (.detail, _, _) => cases h
        | some (.state, n, rest') =>
            obtain ⟨tag, htag, h⟩ := bind_eq_ok_iff.mp h
            obtain ⟨t, ht, h⟩ := bind_eq_ok_iff.mp h
            obtain ⟨hrest, rfl⟩ := finish_eq_ok_iff.mp h
            exact ⟨_, .of_nextPart (.of_nextPart hrest hnext') hnext, .before htag ht⟩
      · cases h

theorem ofMembers_of_shows {members : Members} {ps : List (Part × Node)} {s : CpuState} (h : Shows members ps)
    (hs : Makes ps s) (room : Nat) : ofMembers room members = .ok s := by
  cases hs with
  | alone htag hs =>
      obtain ⟨rest, hnext, hrest⟩ := h.exists_nextPart
      refine bind_eq_ok_iff.mpr ⟨_, hnext, ?_⟩
      refine bind_eq_ok_iff.mpr ⟨_, htag, ?_⟩
      exact bind_eq_ok_iff.mpr ⟨none, nextPart_eq_none_iff.mpr hrest, hs⟩
  | after htag hs =>
      obtain ⟨rest, hnext, hrest⟩ := h.exists_nextPart
      obtain ⟨rest', hnext', hrest'⟩ := hrest.exists_nextPart
      have hfinish : finish s rest' = .ok s := finish_eq_ok_iff.mpr ⟨hrest', rfl⟩
      refine bind_eq_ok_iff.mpr ⟨_, hnext, ?_⟩
      refine bind_eq_ok_iff.mpr ⟨_, htag, ?_⟩
      refine bind_eq_ok_iff.mpr ⟨_, hnext', ?_⟩
      exact bind_eq_ok_iff.mpr ⟨s, within_eq_ok_iff.mpr hs, hfinish⟩
  | @before n d tag _ htag hs =>
      obtain ⟨rest, hnext, hrest⟩ := h.exists_nextPart
      obtain ⟨rest', hnext', hrest'⟩ := hrest.exists_nextPart
      have hfinish : finish s rest' = .ok s := finish_eq_ok_iff.mpr ⟨hrest', rfl⟩
      refine bind_eq_ok_iff.mpr ⟨_, hnext, ?_⟩
      simp only [bufferable_of_withDetail hs room, if_true]
      refine bind_eq_ok_iff.mpr ⟨_, hnext', ?_⟩
      refine bind_eq_ok_iff.mpr ⟨tag, htag, ?_⟩
      exact bind_eq_ok_iff.mpr ⟨s, hs, hfinish⟩

inductive PartsReordered : List (Part × Node) → List (Part × Node) → Prop where
  | same (ps : List (Part × Node)) : PartsReordered ps ps
  | cons (p : Part) {n m : Node} {ps qs : List (Part × Node)} (head : n.Reordered m) (tail : PartsReordered ps qs) :
      PartsReordered ((p, n) :: ps) ((p, m) :: qs)
  | swap {p q : Part} (h : p ≠ q) (n m : Node) (ps : List (Part × Node)) :
      PartsReordered ((p, n) :: (q, m) :: ps) ((q, m) :: (p, n) :: ps)

theorem Shows.reordered {xs ys : Members} {ps : List (Part × Node)} (h : Shows xs ps) (hxs : xs.Reordered ys) :
    ∃ qs, Shows ys qs ∧ PartsReordered ps qs := by
  induction h generalizing ys with
  | closed =>
      cases hxs
      exact ⟨[], .closed, .same []⟩
  | part p n h ih =>
      rcases hxs.cons_cases with ⟨m, zs, rfl, head, tail⟩ | ⟨l, m, zs, hapart, rfl, rfl⟩
      · obtain ⟨qs, hqs, hps⟩ := ih tail
        exact ⟨_, .part p m hqs, .cons p head hps⟩
      · cases h with
        | part q _ h =>
            have hne : p ≠ q := fun heq => hapart.ne (congrArg Part.name heq)
            exact ⟨_, .part q m (.part p n h), .swap hne n m _⟩
        | other hl hm h => exact ⟨_, .other hl hm (.part p n h), .same _⟩
  | @other k n r ps hk hn h ih =>
      rcases hxs.cons_cases with ⟨m, zs, rfl, head, tail⟩ | ⟨l, m, zs, -, rfl, rfl⟩
      · obtain ⟨qs, hqs, hps⟩ := ih tail
        exact ⟨qs, .other hk (head.intact_eq.trans hn) hqs, hps⟩
      · cases h with
        | part q _ h => exact ⟨_, .part q m (.other hk hn h), .same _⟩
        | other hl hm h => exact ⟨_, .other hl hm (.other hk hn h), .same _⟩

theorem PartsReordered.of_singleton {p : Part} {n : Node} {qs : List (Part × Node)}
    (h : PartsReordered [(p, n)] qs) : ∃ m, qs = [(p, m)] ∧ n.Reordered m := by
  cases h with
  | same => exact ⟨n, rfl, .same n⟩
  | cons _ head tail =>
      cases tail
      exact ⟨_, rfl, head⟩

theorem PartsReordered.of_pair {p q : Part} {n k : Node} {rs : List (Part × Node)}
    (h : PartsReordered [(p, n), (q, k)] rs) :
    (∃ m l, rs = [(p, m), (q, l)] ∧ n.Reordered m ∧ k.Reordered l) ∨ rs = [(q, k), (p, n)] := by
  cases h with
  | same => exact .inl ⟨n, k, rfl, .same n, .same k⟩
  | cons _ head tail =>
      obtain ⟨l, rfl, hl⟩ := tail.of_singleton
      exact .inl ⟨_, l, rfl, head, hl⟩
  | swap => exact .inr rfl

theorem Makes.reordered {ps qs : List (Part × Node)} {s : CpuState} (h : Makes ps s) (hps : PartsReordered ps qs) :
    Makes qs s := by
  cases h with
  | @alone n tag _ htag hs =>
      obtain ⟨m, rfl, hm⟩ := hps.of_singleton
      exact .alone (unordered_readTag n m tag hm htag) hs
  | @after n d tag _ htag hs =>
      rcases hps.of_pair with ⟨m, l, rfl, hm, hl⟩ | rfl
      · exact .after (unordered_readTag n m tag hm htag) (unordered_withDetail tag d l s hl hs)
      · exact .before htag hs
  | @before n d tag _ htag hs =>
      rcases hps.of_pair with ⟨l, m, rfl, hl, hm⟩ | rfl
      · exact .before (unordered_readTag n m tag hm htag) (unordered_withDetail tag d l s hl hs)
      · exact .after htag hs

theorem ofItems_reordered {xs ys : Items} (h : xs.Reordered ys) {s : CpuState} (hs : ofItems xs = .ok s) :
    ofItems ys = .ok s := by
  match xs with
  | .closed => cases hs
  | .broken => cases hs
  | .cons n rest =>
      obtain ⟨m, rest', rfl, hm, hrest⟩ := h.exists_cons
      obtain ⟨tag, htag, hs⟩ := bind_eq_ok_iff.mp hs
      have htag' := (unordered_readListedTag.within (.index 0)) n m tag hm htag
      match rest with
      | .closed => cases hs
      | .broken => cases hs
      | .cons d rest =>
          obtain ⟨l, last, rfl, hl, hlast⟩ := hrest.exists_cons
          obtain ⟨t, ht, hs⟩ := bind_eq_ok_iff.mp hs
          have ht' := ((unordered_withDetail tag).within (.index 1)) d l t hl ht
          cases rest with
          | closed =>
              cases hlast
              exact bind_eq_ok_iff.mpr ⟨tag, htag', bind_eq_ok_iff.mpr ⟨t, ht', hs⟩⟩
          | broken => cases hs
          | cons => cases hs

theorem unordered_decode (outer : Nat) : Unordered (decode outer) := by
  intro n m s h hs
  cases h with
  | same => exact hs
  | seq h => exact ofItems_reordered h hs
  | map h =>
      obtain ⟨ps, hps, hmakes⟩ := exists_shows_of_ofMembers hs
      obtain ⟨qs, hqs, hreordered⟩ := hps.reordered h
      exact ofMembers_of_shows hqs (hmakes.reordered hreordered) _

end CpuState

theorem Mapping.unordered_decode : Unordered Mapping.decode := by
  have haddr := unordered_required "addr" unordered_word32
  have hsize := unordered_required "size" unordered_word32
  have hmodule := unordered_optional "module" unordered_string.nullable none
  have hdesc := unordered_required "desc" unordered_string
  exact ((((haddr.fmap Mapping.mk).seq hsize).seq hmodule).seq hdesc).decode _ _

theorem InstructionPart.unordered_decode : Unordered InstructionPart.decode := by
  have hkind := unordered_required "kind" unordered_string
  have htext := unordered_required "text" unordered_string
  exact ((hkind.fmap InstructionPart.mk).seq htext).decode _ _

theorem Instruction.unordered_decode : Unordered Instruction.decode := by
  have haddr := unordered_required "addr" unordered_word32
  have hbytes := unordered_required "bytes" unordered_string
  have hcode := unordered_required "code" InstructionPart.unordered_decode.list
  have hops := unordered_optional "ops" unordered_string.list []
  exact ((((haddr.fmap Instruction.mk).seq hbytes).seq hcode).seq hops).decode _ _

theorem Breakpoint.unordered_decode : Unordered Breakpoint.decode := by
  have haddress := unordered_required "address" unordered_word32
  have hdisabled := unordered_optional "disabled" unordered_boolean false
  have honeShot := unordered_optional "oneShot" unordered_boolean false
  exact (((haddress.fmap Breakpoint.ofFields).seq hdisabled).seq honeShot).decode _ _

theorem Trace.unordered_decode : Unordered Trace.decode := by
  have hprogram := unordered_required "program" unordered_word32.list
  have himports := unordered_optional "imports" unordered_string.table .empty
  have hblocks := unordered_optional "blocks" (unordered_natural 0x10000000000000000 "usize").list []
  have hexit := unordered_optional "exit_code" unordered_word32 0
  have hmappings := unordered_optional "mappings" Mapping.unordered_decode.list []
  exact (((((hprogram.fmap Trace.mk).seq himports).seq hblocks).seq hexit).seq hmappings).decode _ _

theorem DebugState.unordered_decode (outer : Nat) : Unordered (DebugState.decode outer) := by
  have hrunning := unordered_required "running" unordered_boolean
  have hpointer := unordered_required "instruction_pointer" unordered_word32
  have hlocation := unordered_required "location" unordered_string
  have hcount := unordered_required "instruction_count" (unordered_word64 "u64")
  have hsize := unordered_required "step_size" (unordered_word64 "usize")
  have hrate := unordered_required "instr_per_ms" unordered_real
  have hcpu := (CpuState.unordered_decode (outer + 1)).nullable
  have hstate := unordered_optional "cpu_state" hcpu none
  have hbreakpoints := unordered_required "breakpoints" Breakpoint.unordered_decode.list
  exact ((((((((hrunning.fmap DebugState.mk).seq hpointer).seq hlocation).seq hcount).seq hsize).seq
    hrate).seq hstate).seq hbreakpoints).decode _ _

namespace DebugRequest

theorem unordered_withFields (name : String) {r : Record DebugRequest} (h : r.Unordered) :
    (withFields name r).Unordered :=
  Variant.unordered_record name (h.decode _ _)

theorem unordered_decode : Unordered decode := by
  have haddress := unordered_required "address" unordered_word32
  have honeShot := unordered_optional "one_shot" unordered_boolean false
  have hname := unordered_required "name" unordered_string
  refine Variant.unordered_decode ?_
  simp only [variants, List.forall_mem_cons]
  exact ⟨Variant.unordered_unit _ _, Variant.unordered_unit _ _, Variant.unordered_unit _ _,
    unordered_withFields _ (haddress.fmap _), unordered_withFields _ ((haddress.fmap _).seq honeShot),
    unordered_withFields _ (hname.fmap _), unordered_withFields _ (haddress.fmap _),
    unordered_withFields _ (haddress.fmap _), Variant.unordered_unit _ _, Variant.unordered_unit _ _,
    List.forall_mem_nil _⟩

end DebugRequest

theorem DebugResponse.unordered_decode : Unordered DebugResponse.decode := by
  have hbreakpoints := Breakpoint.unordered_decode.list
  have hstate := DebugState.unordered_decode 1
  refine Variant.unordered_decode ?_
  simp only [DebugResponse.variants, List.forall_mem_cons]
  exact ⟨Variant.unordered_unit _ _, Variant.unordered_value _ (unordered_string.map _),
    Variant.unordered_value _ (hbreakpoints.map _), Variant.unordered_value _ (hstate.map _),
    Variant.unordered_value _ (unordered_word32.nullable.map _), List.forall_mem_nil _⟩

theorem Payload.unordered_decoder (p : Payload) : Unordered p.decoder := by
  cases p with
  | mappings => exact Mapping.unordered_decode.list
  | instructions => exact Instruction.unordered_decode.list
  | breakpoints => exact Breakpoint.unordered_decode.list
  | cpuState => exact CpuState.unordered_decode 0
  | trace => exact Trace.unordered_decode
  | symbolTable => exact unordered_string.table
  | request => exact DebugRequest.unordered_decode
  | response => exact DebugResponse.unordered_decode
  | state => exact DebugState.unordered_decode 0

theorem SymbolTable.decode_rearranged {text other : String} (h : Relation.ReflTransGen Rearranged text other)
    {t : SymbolTable} (ht : SymbolTable.decode text = .ok t) : SymbolTable.decode other = .ok t := by
  unfold SymbolTable.decode at ht
  cases hraw : decodeText (.table .string) text with
  | error e =>
      rw [hraw] at ht
      cases ht
  | ok raw =>
      rw [hraw] at ht
      rw [SymbolTable.decode, unordered_string.table.orderFree text other raw hraw h]
      exact ht

theorem payloads_orderFree :
    (∀ p : Payload, OrderFree p.decoder) ∧ OrderFree Mapping.decode ∧ OrderFree InstructionPart.decode ∧
      OrderFree Instruction.decode ∧ OrderFree Breakpoint.decode ∧
      ∀ (text other : String) (t : SymbolTable), SymbolTable.decode text = .ok t →
        Relation.ReflTransGen Rearranged text other → SymbolTable.decode other = .ok t :=
  ⟨fun p => p.unordered_decoder.orderFree, Mapping.unordered_decode.orderFree,
    InstructionPart.unordered_decode.orderFree, Instruction.unordered_decode.orderFree,
    Breakpoint.unordered_decode.orderFree, fun _ _ _ ht h => SymbolTable.decode_rearranged h ht⟩

theorem payloads_orderFree_detail_first :
    decodeText (CpuState.decode 0) "\x7b\"detail\":3,\"state\":\"exit\",\"note\":[]\x7d," = .ok (.exit 3) := by
  have hfirst : decodeText (CpuState.decode 0) "\x7b\"state\":\"exit\",\"note\":[],\"detail\":3\x7d," =
      .ok (.exit 3) := by
    rfl
  have hstep : Rearranged "\x7b\"state\":\"exit\",\"note\":[],\"detail\":3\x7d,"
      "\x7b\"detail\":3,\"state\":\"exit\",\"note\":[]\x7d," := by
    refine .intro [] [',']
      ([.written "state" (.ofString "exit") rfl, .written "note" (.seq .closed) rfl] ++
        [.written "detail" (.num ['3']) rfl]) _ rfl ?_ (List.perm_append_comm.map _) rfl rfl
    simp [Member.written, Apart]
  exact payloads_orderFree.1 .cpuState _ _ _ hfirst (.single hstep)

end RunControl
