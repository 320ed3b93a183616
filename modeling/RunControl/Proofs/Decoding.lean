import RunControl.Engine.Scripted
import RunControl.Proofs.BreakpointSet
import RunControl.Proofs.Json.Stability
import RunControl.Request

namespace RunControl

open Json Json.Record

namespace CpuState

theorem thorough_withDetail (tag : Tag) : Thorough tag.withDetail := by
  cases tag with
  | running => exact (thorough_unit _).map _
  | blocked => exact (thorough_unit _).map _
  | debugBreak => exact (thorough_unit _).map _
  | exit => exact thorough_word32.map _
  | error => exact thorough_string.map _

theorem thorough_readTag : Thorough readTag := by
  have hvariants : ∀ v ∈ tags, v.Thorough := by
    simp only [tags, List.forall_mem_cons]
    refine ⟨Variant.thorough_unit _ _, Variant.thorough_unit _ _, Variant.thorough_unit _ _,
      Variant.thorough_unit _ _, Variant.thorough_unit _ _, nofun⟩
  exact fun n tag h => (Variant.enclosing_decode hvariants).thorough n tag (within_eq_ok_iff.mp h)

theorem intact_of_nextPart_none {members : Members} (h : nextPart members = .ok none) :
    members.intact = true := by
  fun_induction nextPart members with
  | case1 => rfl
  | case2 => cases h
  | case3 => cases h
  | case4 k n r hstate hdetail hn ih =>
      rw [Members.intact, hn, ih h]
      rfl
  | case5 => cases h
  | case6 => cases h

theorem intact_of_nextPart_some {members rest : Members} {part : Part} {m : Node}
    (h : nextPart members = .ok (some (part, m, rest))) (hm : m.intact = true) (hr : rest.intact = true) :
    members.intact = true := by
  fun_induction nextPart members with
  | case1 => cases h
  | case2 n r =>
      cases h
      rw [Members.intact, hm, hr]
      rfl
  | case3 n r =>
      cases h
      rw [Members.intact, hm, hr]
      rfl
  | case4 k n r hstate hdetail hn ih =>
      rw [Members.intact, hn, ih h]
      rfl
  | case5 => cases h
  | case6 => cases h

theorem intact_of_finish {s t : CpuState} {rest : Members} (h : finish s rest = .ok t) :
    rest.intact = true := by
  obtain ⟨next, hnext, h⟩ := bind_eq_ok_iff.mp h
  cases next with
  | none => exact intact_of_nextPart_none hnext
  | some next => cases h

theorem intact_of_ofMembers {room : Nat} {members : Members} {s : CpuState}
    (h : ofMembers room members = .ok s) : members.intact = true := by
  obtain ⟨next, hnext, h⟩ := bind_eq_ok_iff.mp h
  match next with
  | none => cases h
  | some (.state, n, rest) =>
      obtain ⟨tag, htag, h⟩ := bind_eq_ok_iff.mp h
      have hn := thorough_readTag n tag htag
      obtain ⟨next, hnext', h⟩ := bind_eq_ok_iff.mp h
      match next with
      | none => exact intact_of_nextPart_some hnext hn (intact_of_nextPart_none hnext')
      | some (.state, _, _) => cases h
      | some (.detail, d, rest') =>
          obtain ⟨t, ht, h⟩ := bind_eq_ok_iff.mp h
          have hd := thorough_withDetail tag d t (within_eq_ok_iff.mp ht)
          exact intact_of_nextPart_some hnext hn (intact_of_nextPart_some hnext' hd (intact_of_finish h))
  | some (.detail, d, rest) =>
      simp only at h
      split at h
      · rename_i hd
        obtain ⟨next, hnext', h⟩ := bind_eq_ok_iff.mp h
        match next with
        | none => cases h
        | some (.detail, _, _) => cases h
        | some (.state, n, rest') =>
            obtain ⟨tag, htag, h⟩ := bind_eq_ok_iff.mp h
            obtain ⟨t, ht, h⟩ := bind_eq_ok_iff.mp h
            have hn := thorough_readTag n tag htag
            exact intact_of_nextPart_some hnext (d.intact_of_bufferable hd)
              (intact_of_nextPart_some hnext' hn (intact_of_finish h))
      · cases h

theorem thorough_readListedTag : Thorough readListedTag :=
  thorough_of_flat (fun _ _ => nofun) (fun _ _ => nofun) fun _ => nofun

theorem intact_of_ofItems {items : Items} {s : CpuState} (h : ofItems items = .ok s) :
    items.intact = true := by
  match items with
  | .closed => cases h
  | .broken => cases h
  | .cons n rest =>
      obtain ⟨tag, htag, h⟩ := bind_eq_ok_iff.mp h
      have hn := thorough_readListedTag n tag (within_eq_ok_iff.mp htag)
      match rest with
      | .closed => cases h
      | .broken => cases h
      | .cons d rest =>
          obtain ⟨t, ht, h⟩ := bind_eq_ok_iff.mp h
          have hd := thorough_withDetail tag d t (within_eq_ok_iff.mp ht)
          cases rest with
          | closed =>
              rw [Items.intact, Items.intact, hn, hd]
              rfl
          | broken => cases h
          | cons => cases h

theorem enclosing_decode (outer : Nat) : Enclosing (decode outer) := by
  intro n s h
  cases n with
  | map members => exact intact_of_ofMembers h
  | seq items => exact intact_of_ofItems h
  | _ => cases h

end CpuState

theorem Mapping.enclosing_decode : Enclosing Mapping.decode := by
  have haddr := thorough_required "addr" thorough_word32
  have hsize := thorough_required "size" thorough_word32
  have hmodule := thorough_optional "module" thorough_string.nullable none
  have hdesc := thorough_required "desc" thorough_string
  exact ((((haddr.fmap Mapping.mk).seq hsize).seq hmodule).seq hdesc).decode _ _

theorem InstructionPart.enclosing_decode : Enclosing InstructionPart.decode := by
  have hkind := thorough_required "kind" thorough_string
  have htext := thorough_required "text" thorough_string
  exact ((hkind.fmap InstructionPart.mk).seq htext).decode _ _

theorem Instruction.enclosing_decode : Enclosing Instruction.decode := by
  have haddr := thorough_required "addr" thorough_word32
  have hbytes := thorough_required "bytes" thorough_string
  have hcode := thorough_required "code" InstructionPart.enclosing_decode.thorough.list.thorough
  have hops := thorough_optional "ops" thorough_string.list.thorough []
  exact ((((haddr.fmap Instruction.mk).seq hbytes).seq hcode).seq hops).decode _ _

theorem Breakpoint.enclosing_decode : Enclosing Breakpoint.decode := by
  have haddress := thorough_required "address" thorough_word32
  have hdisabled := thorough_optional "disabled" thorough_boolean false
  have honeShot := thorough_optional "oneShot" thorough_boolean false
  exact (((haddress.fmap Breakpoint.ofFields).seq hdisabled).seq honeShot).decode _ _

theorem Trace.enclosing_decode : Enclosing Trace.decode := by
  have hprogram := thorough_required "program" thorough_word32.list.thorough
  have himports := thorough_optional "imports" thorough_string.table.thorough .empty
  have hblocks := thorough_optional "blocks" (thorough_natural 0x10000000000000000 "usize").list.thorough []
  have hexit := thorough_optional "exit_code" thorough_word32 0
  have hmappings := thorough_optional "mappings" Mapping.enclosing_decode.thorough.list.thorough []
  exact (((((hprogram.fmap Trace.mk).seq himports).seq hblocks).seq hexit).seq hmappings).decode _ _

theorem DebugState.enclosing_decode (outer : Nat) : Enclosing (DebugState.decode outer) := by
  have hrunning := thorough_required "running" thorough_boolean
  have hpointer := thorough_required "instruction_pointer" thorough_word32
  have hlocation := thorough_required "location" thorough_string
  have hcount := thorough_required "instruction_count" (thorough_word64 "u64")
  have hsize := thorough_required "step_size" (thorough_word64 "usize")
  have hrate := thorough_required "instr_per_ms" thorough_real
  have hcpu := (CpuState.enclosing_decode (outer + 1)).thorough.nullable
  have hstate := thorough_optional "cpu_state" hcpu none
  have hbreakpoints := thorough_required "breakpoints" Breakpoint.enclosing_decode.thorough.list.thorough
  exact ((((((((hrunning.fmap DebugState.mk).seq hpointer).seq hlocation).seq hcount).seq hsize).seq
    hrate).seq hstate).seq hbreakpoints).decode _ _

namespace DebugRequest

theorem thorough_withFields (name : String) {r : Record DebugRequest} (h : r.Thorough) :
    (withFields name r).Thorough :=
  Variant.thorough_record name (h.decode _ _).thorough

theorem enclosing_decode : Enclosing decode := by
  have haddress := thorough_required "address" thorough_word32
  have honeShot := thorough_optional "one_shot" thorough_boolean false
  have hname := thorough_required "name" thorough_string
  refine Variant.enclosing_decode ?_
  simp only [variants, List.forall_mem_cons]
  exact ⟨Variant.thorough_unit _ _, Variant.thorough_unit _ _, Variant.thorough_unit _ _,
    thorough_withFields _ (haddress.fmap _), thorough_withFields _ ((haddress.fmap _).seq honeShot),
    thorough_withFields _ (hname.fmap _), thorough_withFields _ (haddress.fmap _),
    thorough_withFields _ (haddress.fmap _), Variant.thorough_unit _ _, Variant.thorough_unit _ _, nofun⟩

end DebugRequest

theorem DebugResponse.enclosing_decode : Enclosing DebugResponse.decode := by
  have hbreakpoints := Breakpoint.enclosing_decode.thorough.list.thorough
  have hstate := (DebugState.enclosing_decode 1).thorough
  refine Variant.enclosing_decode ?_
  simp only [DebugResponse.variants, List.forall_mem_cons]
  exact ⟨Variant.thorough_unit _ _, Variant.thorough_value _ (thorough_string.map _),
    Variant.thorough_value _ (hbreakpoints.map _), Variant.thorough_value _ (hstate.map _),
    Variant.thorough_value _ (thorough_word32.nullable.map _), nofun⟩

inductive Payload where
  | mappings
  | instructions
  | breakpoints
  | cpuState
  | trace
  | symbolTable
  | request
  | response
  | state

namespace Payload

def Value : Payload → Type
  | .mappings => List Mapping
  | .instructions => List Instruction
  | .breakpoints => List Breakpoint
  | .cpuState => CpuState
  | .trace => Trace
  | .symbolTable => Table String String
  | .request => DebugRequest
  | .response => DebugResponse
  | .state => DebugState

def decoder : (p : Payload) → Decoder p.Value
  | .mappings => .list Mapping.decode
  | .instructions => .list Instruction.decode
  | .breakpoints => .list Breakpoint.decode
  | .cpuState => CpuState.decode 0
  | .trace => Trace.decode
  | .symbolTable => .table .string
  | .request => DebugRequest.decode
  | .response => DebugResponse.decode
  | .state => DebugState.decode 0

theorem enclosing_decoder (p : Payload) : Enclosing p.decoder := by
  cases p with
  | mappings => exact Mapping.enclosing_decode.thorough.list
  | instructions => exact Instruction.enclosing_decode.thorough.list
  | breakpoints => exact Breakpoint.enclosing_decode.thorough.list
  | cpuState => exact CpuState.enclosing_decode 0
  | trace => exact Trace.enclosing_decode
  | symbolTable => exact thorough_string.table
  | request => exact DebugRequest.enclosing_decode
  | response => exact DebugResponse.enclosing_decode
  | state => exact DebugState.enclosing_decode 0

end Payload

theorem SymbolTable.decode_append {text : String} {t : SymbolTable} (h : SymbolTable.decode text = .ok t)
    (more : String) : SymbolTable.decode (text ++ more) = .ok t := by
  unfold SymbolTable.decode at h
  cases hraw : decodeText (.table .string) text with
  | error e =>
      rw [hraw] at h
      cases h
  | ok raw =>
      rw [hraw] at h
      rw [SymbolTable.decode, thorough_string.table.prefixStable text raw hraw]
      exact h

namespace Store

variable {σ : Type} [Storage σ] {key text : String} {storage : σ}

theorem at?_load_of_alone (h : Storage.get? storage key = some text) {bs : List Breakpoint}
    (hbs : Alone (.list Breakpoint.decode) text bs) (a : Address) :
    (load key storage).set.at? a = bs.reverse.find? (·.address == a) := by
  have hwhole := Breakpoint.enclosing_decode.thorough.list.decodeWhole?_eq_some_iff.mpr hbs
  simp only [load, restore, h, BreakpointSet.ofText, hwhole]
  exact BreakpointSet.at?_ofList bs a

theorem set_load_of_not_alone (h : Storage.get? storage key = some text)
    (hnot : ∀ bs, ¬ Alone (.list Breakpoint.decode) text bs) : (load key storage).set = .empty := by
  have hwhole : decodeWhole? (.list Breakpoint.decode) text = none :=
    Option.eq_none_iff_forall_ne_some.mpr fun bs hbs =>
      hnot bs (Breakpoint.enclosing_decode.thorough.list.decodeWhole?_eq_some_iff.mp hbs)
  simp only [load, restore, h, BreakpointSet.ofText, hwhole]

end Store

theorem Payload.prefixStable_and_restored :
    (∀ p : Payload, PrefixStable p.decoder) ∧
      (∀ text t, SymbolTable.decode text = .ok t → ∀ more, SymbolTable.decode (text ++ more) = .ok t) ∧
      ∀ {σ : Type} [Storage σ] (key : String) (storage : σ) (text : String),
        Storage.get? storage key = some text →
          (∀ bs, Alone (.list Breakpoint.decode) text bs →
            ∀ a, (Store.load key storage).set.at? a = bs.reverse.find? (·.address == a)) ∧
          ((∀ bs, ¬ Alone (.list Breakpoint.decode) text bs) → (Store.load key storage).set = .empty) := by
  refine ⟨fun p => p.enclosing_decoder.prefixStable, fun text t h more => SymbolTable.decode_append h more, ?_⟩
  intro σ _ key storage text h
  exact ⟨fun bs => Store.at?_load_of_alone h, Store.set_load_of_not_alone h⟩

theorem Payload.prefixStable_and_restored_trailing :
    decodeText (CpuState.decode 0) ("\x7b\"state\":\"running\"\x7d" ++ ",") = .ok .running ∧
      (Store.load "k" (⟨some "[[16],[16,true]] \n"⟩ : ReadOnlyStorage)).set.at? 16 =
        some ⟨⟨true, false⟩, 16⟩ ∧
      (Store.load "k" (⟨some "[[16],[16,true]] ,"⟩ : ReadOnlyStorage)).set = .empty := by
  have hlist := Breakpoint.enclosing_decode.thorough.list
  obtain ⟨hstable, -, hrestored⟩ := Payload.prefixStable_and_restored
  have hstate : decodeText (CpuState.decode 0) "\x7b\"state\":\"running\"\x7d" = .ok .running :=
    rfl
  refine ⟨hstable .cpuState _ _ hstate ",", ?_, ?_⟩
  · have hblanks : decodeWhole? (.list Breakpoint.decode) "[[16],[16,true]] \n" =
        some [⟨⟨false, false⟩, 16⟩, ⟨⟨true, false⟩, 16⟩] := by
      decide +kernel
    exact (hrestored "k" _ _ rfl).1 _ (hlist.decodeWhole?_eq_some_iff.mp hblanks) 16
  · have hcomma : decodeWhole? (.list Breakpoint.decode) "[[16],[16,true]] ," = none := by
      decide +kernel
    refine (hrestored "k" _ _ rfl).2 fun bs hbs => ?_
    rw [← hlist.decodeWhole?_eq_some_iff, hcomma] at hbs
    cases hbs

end RunControl
