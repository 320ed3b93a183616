import RunControl.CommandLine.Usage

namespace RunControl.CommandLine

inductive Given where
  | switch (s : Switch)
  | value (f : Field) (text : Option String)
  deriving DecidableEq, Repr

inductive Ending where
  | done
  | command (p : Place) (rest : List String)
  | refused (e : UsageFault)
  deriving DecidableEq, Repr

structure Reading where
  settled : List Given
  waiting : Option Given
  ending : Ending
  deriving DecidableEq, Repr

namespace Reading

def refused (e : UsageFault) : Reading :=
  ⟨[], none, .refused e⟩

def after (waited : Option Given) (r : Reading) : Reading :=
  { r with settled := waited.toList ++ r.settled }

def afterBoth (waited : Option Given) (came : Given) (r : Reading) : Reading :=
  (r.after (some came)).after waited

@[simp]
theorem ending_after (w : Option Given) (r : Reading) : (r.after w).ending = r.ending := rfl

@[simp]
theorem ending_afterBoth (w : Option Given) (g : Given) (r : Reading) :
    (r.afterBoth w g).ending = r.ending := rfl

end Reading

inductive Shape where
  | separator
  | long (name : String) (value : Option String)
  | letters (cs : List Char)
  | plain
  deriving DecidableEq, Repr

namespace Shape

def ofLong (cs : List Char) : Shape :=
  let value := match cs.dropWhile (· != '=') with
    | [] => none
    | _ :: v => some (String.ofList v)
  .long (String.ofList (cs.takeWhile (· != '='))) value

def ofWord (word : String) : Shape :=
  match word.toList with
  | '-' :: '-' :: [] => .separator
  | '-' :: '-' :: cs => ofLong cs
  | '-' :: c :: cs => .letters (c :: cs)
  | _ => .plain

end Shape

namespace Place

def help (p : Place) : List String → UsageFault
  | [] => .helpAsked p
  | word :: rest =>
      match p.subcommand? word with
      | some q => q.help rest
      | none =>
          if word == "help" && !p.subcommands.isEmpty && rest.isEmpty then .helpAsked p
          else .unknownCommand word

def turn? (p : Place) (word : String) (rest : List String) : Option Ending :=
  if p.subcommands.isEmpty then none
  else if word == "help" then some (.refused (p.help rest))
  else (p.subcommand? word).map fun q => .command q rest

def refusal (p : Place) (word : String) : UsageFault :=
  if p.subcommands.isEmpty then .unknownWord word else .unknownCommand word

def scanOperands (p : Place) (waiting : Option Given) : List Field → List String → Reading
  | _, [] => ⟨[], waiting, .done⟩
  | f :: fs, word :: rest =>
      (scanOperands p (some (.value f (some word))) fs rest).after waiting
  | [], word :: rest =>
      .refused (if (p.turn? word rest).isSome then .unknownWord word else p.refusal word)

def scanLetters (p : Place) (next : Option Given → Reading) : Option Given → List Char → Reading
  | waiting, [] => next waiting
  | waiting, c :: cs =>
      match p.short? c with
      | none => .refused (.unknownWord ("-" ++ String.singleton c))
      | some (.switch s) => (scanLetters p next none cs).afterBoth waiting (.switch s)
      | some (.option f) =>
          match cs with
          | [] => (next (some (.value f none))).after waiting
          | '=' :: v => (next none).afterBoth waiting (.value f (some (String.ofList v)))
          | v => (next none).afterBoth waiting (.value f (some (String.ofList v)))

def isAwaited : Option Given → Bool
  | some (.value _ none) => true
  | _ => false

def scan (p : Place) (waiting : Option Given) (operands : List Field) : List String → Reading
  | [] => ⟨[], waiting, .done⟩
  | word :: rest =>
      match if isAwaited waiting then none else p.turn? word rest with
      | some ending => ⟨[], waiting, ending⟩
      | none =>
          match Shape.ofWord word with
          | .separator => scanOperands p waiting operands rest
          | .letters cs => scanLetters p (fun w => scan p w operands rest) waiting cs
          | .long name value =>
              match p.long? name, value with
              | none, _ => .refused (.unknownWord word)
              | some (.switch s), some _ => .refused (.valueOnSwitch s)
              | some (.switch s), none =>
                  (scan p none operands rest).afterBoth waiting (.switch s)
              | some (.option f), none => (scan p (some (.value f none)) operands rest).after waiting
              | some (.option f), v => (scan p none operands rest).afterBoth waiting (.value f v)
          | .plain =>
              match waiting, operands with
              | some (.value f none), fs => scan p (some (.value f (some word))) fs rest
              | w, f :: fs => (scan p (some (.value f (some word))) fs rest).after w
              | _, [] => .refused (p.refusal word)

theorem not_command_scanOperands (p q : Place) (rest : List String) (w : Option Given)
    (fs : List Field) (words : List String) :
    (p.scanOperands w fs words).ending ≠ .command q rest := by
  induction words generalizing w fs with
  | nil => simp [scanOperands]
  | cons word words ih =>
    cases fs with
    | nil => simp [scanOperands, Reading.refused]
    | cons f fs => simpa [scanOperands] using ih _ fs

theorem command_of_scanLetters {p q : Place} {rest : List String} {next : Option Given → Reading}
    {w : Option Given} {cs : List Char} (h : (p.scanLetters next w cs).ending = .command q rest) :
    ∃ v, (next v).ending = .command q rest := by
  induction cs generalizing w with
  | nil => exact ⟨w, h⟩
  | cons c cs ih =>
    simp only [scanLetters] at h
    split at h
    · simp [Reading.refused] at h
    · exact ih h
    · split at h <;> exact ⟨_, h⟩

theorem rest_of_turn? {p q : Place} {word : String} {rest left : List String}
    (h : p.turn? word rest = some (.command q left)) : left = rest := by
  simp only [turn?] at h
  split at h
  · simp at h
  · split at h
    · simp at h
    · obtain ⟨_, _, he⟩ := Option.map_eq_some_iff.1 h
      exact (Ending.command.inj he).2.symm

theorem length_lt_of_scan {p q : Place} {w : Option Given} {fs : List Field}
    {words rest : List String} (h : (p.scan w fs words).ending = .command q rest) :
    rest.length < words.length := by
  induction words generalizing w fs with
  | nil => simp [scan] at h
  | cons word words ih =>
    have later {w : Option Given} {fs : List Field}
        (h : (p.scan w fs words).ending = .command q rest) : rest.length < (word :: words).length :=
      Nat.lt_succ_of_lt (ih h)
    simp only [scan] at h
    split at h
    · rename_i ending ht
      split at ht
      · simp at ht
      · subst h
        rw [rest_of_turn? ht]
        exact Nat.lt_succ_self _
    · split at h
      · exact absurd h (not_command_scanOperands _ _ _ _ _ _)
      · obtain ⟨v, hv⟩ := command_of_scanLetters h
        exact later hv
      · split at h
        · simp [Reading.refused] at h
        · simp [Reading.refused] at h
        · exact later h
        · exact later h
        · exact later h
      · split at h
        · exact later h
        · exact later h
        · simp [Reading.refused] at h

end Place

end RunControl.CommandLine
