import RunControl.Proofs.EngineUse
import RunControl.Proofs.Json.Records
import RunControl.Proofs.RunInputs

namespace RunControl

open Json CommandLine

inductive EngineRequest where
  | load (name : String) (image : ByteArray) (relocate : Bool)
  | use (u : Use)

inductive EngineAnswer where
  | done
  | state (s : CpuState)
  | listing (list : List Instruction)

def Engine.answer {ε : Type} [Engine ε] (e : ε) : Use → EngineAnswer
  | .call (.run limit) => .state (Engine.run e limit).1
  | .call _ => .done
  | .disassemble a n => .listing (Engine.disassemble e a n).1

namespace Scripted

/-- Loading in place, stage by stage. Each stage may fail, and only the last one writes. -/
def reload (name : String) (image : ByteArray) (_relocate : Bool) : EStateM Error (Recorded Scripted) Unit := do
  let text ← MonadExcept.ofExcept (imageText name image)
  let trace ← MonadExcept.ofExcept ((decodeText Trace.decode text).mapError (.payload "trace file"))
  let symbols ← MonadExcept.ofExcept (SymbolTable.ofKeys trace.imports)
  set (Recorded.fresh (ofTrace name trace symbols))

theorem run_ofExcept_bind {ε σ α β : Type} (x : Except ε α) (f : α → EStateM ε σ β) (s : σ) :
    ((MonadExcept.ofExcept x : EStateM ε σ α) >>= f).run s =
      match x with
      | .ok a => (f a).run s
      | .error e => .error e s := by
  cases x with
  | error e => rfl
  | ok a => rfl

theorem run_reload (name : String) (image : ByteArray) (relocate : Bool) (r : Recorded Scripted) :
    (reload name image relocate).run r =
      match Engine.load r name image relocate with
      | .ok s => .ok () s
      | .error x => .error x r := by
  change _ = match (ofImage name image).map Recorded.fresh with
    | .ok s => EStateM.Result.ok () s
    | .error x => .error x r
  simp only [reload, run_ofExcept_bind, ofImage]
  cases imageText name image with
  | error x => rfl
  | ok text =>
      simp only
      cases decodeText Trace.decode text with
      | error fault => rfl
      | ok trace =>
          simp only [Except.mapError]
          cases SymbolTable.ofKeys trace.imports with
          | error x => rfl
          | ok symbols => rfl

def serve (r : Recorded Scripted) : EngineRequest → Except Error EngineAnswer × Recorded Scripted
  | .load name image relocate =>
      match (reload name image relocate).run r with
      | .ok () s => (.ok .done, s)
      | .error x s => (.error x, s)
  | .use u => (.ok (Engine.answer r u), Engine.use r u)

def serveAll (r : Recorded Scripted) : List EngineRequest → List (Except Error EngineAnswer) × Recorded Scripted
  | [] => ([], r)
  | q :: qs =>
      let (answer, s) := serve r q
      let (answers, t) := serveAll s qs
      (answer :: answers, t)

def BegunFrom (name : String) (image : ByteArray) (e : Scripted) : Prop :=
  ∃ text trace symbols, Text.Utf8.decode? image = some text ∧ decodeText Trace.decode text = .ok trace ∧
    SymbolTable.ofKeys trace.imports = .ok symbols ∧
    e = { name := some name, program := trace.program.toArray, position := 0, count := 0
          blocks := .ofList (trace.blocks.map fun p => (p, ())), blocked := false
          exitCode := trace.exitCode, last := none, symbols, mappings := trace.mappings
          registered := .empty }

theorem begunFrom_of_ofImage {name : String} {image : ByteArray} {e : Scripted} (h : ofImage name image = .ok e) :
    BegunFrom name image e := by
  rw [ofImage, imageText] at h
  cases htext : Text.Utf8.decode? image with
  | none =>
      rw [htext] at h
      cases h
  | some text =>
      rw [htext] at h
      cases htrace : decodeText Trace.decode text with
      | error fault =>
          simp only [htrace] at h
          cases h
      | ok trace =>
          simp only [htrace] at h
          obtain ⟨symbols, hsymbols, rfl⟩ := map_eq_ok_iff.mp h
          exact ⟨text, trace, symbols, htext, htrace, hsymbols, rfl⟩

theorem serve_load (r : Recorded Scripted) (name : String) (image : ByteArray) (relocate : Bool) :
    serve r (.load name image relocate) =
      match Engine.load r name image relocate with
      | .ok s => (.ok .done, s)
      | .error x => (.error x, r) := by
  rw [serve, run_reload]
  cases Engine.load r name image relocate with
  | error x => rfl
  | ok s => rfl

theorem loads_afresh (name : String) (image : ByteArray) :
    (∃ x, ImageFault name image x ∧ ∀ (r : Recorded Scripted) (relocate : Bool),
      Engine.load r name image relocate = .error x ∧ serve r (.load name image relocate) = (.error x, r) ∧
        ∀ later, serveAll r (.load name image relocate :: later) =
          (.error x :: (serveAll r later).1, (serveAll r later).2)) ∨
      ∃ e, BegunFrom name image e ∧ ∀ (r : Recorded Scripted) (relocate : Bool),
        Engine.load r name image relocate = .ok (.fresh e) ∧
          serve r (.load name image relocate) = (.ok .done, .fresh e) ∧
          ∀ later anyhow, serveAll r (.load name image relocate :: later) =
            serveAll (.fresh .idle) (.load name image anyhow :: later) := by
  rcases ofImage_cases name image with ⟨e, he⟩ | ⟨x, hx, he⟩
  · have hload : ∀ (r : Recorded Scripted) (relocate : Bool),
        Engine.load r name image relocate = .ok (.fresh e) :=
      fun r relocate => congrArg (Except.map Recorded.fresh) he
    have hserve : ∀ (r : Recorded Scripted) (relocate : Bool),
        serve r (.load name image relocate) = (.ok .done, .fresh e) := by
      intro r relocate
      rw [serve_load, hload]
    refine .inr ⟨e, begunFrom_of_ofImage he, fun r relocate => ⟨hload r relocate, hserve r relocate, ?_⟩⟩
    intro later anyhow
    simp only [serveAll, hserve]
  · have hload : ∀ (r : Recorded Scripted) (relocate : Bool),
        Engine.load r name image relocate = .error x :=
      fun r relocate => congrArg (Except.map Recorded.fresh) he
    have hserve : ∀ (r : Recorded Scripted) (relocate : Bool),
        serve r (.load name image relocate) = (.error x, r) := by
      intro r relocate
      rw [serve_load, hload]
    refine .inl ⟨x, hx, fun r relocate => ⟨hload r relocate, hserve r relocate, ?_⟩⟩
    intro later
    simp only [serveAll, hserve]

end Scripted

end RunControl
