import Mathlib.Data.List.Forall2
import RunControl.CommandLine.Commands

namespace RunControl

open Json

structure SymbolTable.FirstBadKey (raw : Table String String) (key : String) (fault : NumeralFault) :
    Prop where
  bad : Address.readKey key = .error fault
  first : ∃ before name after, raw.entries = before ++ (key, name) :: after ∧
    ∀ e ∈ before, ∃ a, Address.readKey e.1 = .ok a

theorem SymbolTable.insertKeys_cases (t : SymbolTable) (entries : List (String × String)) :
    (∃ u, insertKeys t entries = .ok u) ∨
      ∃ before key name after fault, entries = before ++ (key, name) :: after ∧
        (∀ e ∈ before, ∃ a, Address.readKey e.1 = .ok a) ∧ Address.readKey key = .error fault ∧
        insertKeys t entries = .error (.addressKey key fault) := by
  induction entries generalizing t with
  | nil => exact .inl ⟨t, rfl⟩
  | cons e rest ih =>
      obtain ⟨key, name⟩ := e
      rw [insertKeys]
      cases hk : Address.readKey key with
      | error fault => exact .inr ⟨[], key, name, rest, fault, rfl, nofun, hk, rfl⟩
      | ok a =>
          rcases ih (t.insert a name) with ⟨u, hu⟩ | ⟨before, k, n, after, fault, rfl, hb, hf, he⟩
          · exact .inl ⟨u, hu⟩
          · refine .inr ⟨(key, name) :: before, k, n, after, fault, rfl, ?_, hf, he⟩
            exact List.forall_mem_cons.mpr ⟨⟨a, hk⟩, hb⟩

theorem SymbolTable.ofKeys_cases (raw : Table String String) :
    (∃ t, ofKeys raw = .ok t) ∨
      ∃ key fault, FirstBadKey raw key fault ∧ ofKeys raw = .error (.addressKey key fault) := by
  rcases insertKeys_cases .empty raw.entries with ⟨t, ht⟩ | ⟨before, key, name, after, fault, hs, hb, hf, he⟩
  · exact .inl ⟨t, ht⟩
  · exact .inr ⟨key, fault, ⟨hf, before, name, after, hs, hb⟩, he⟩

namespace CommandLine

def Loads (files : Files.Tree) (path name : String) (engine : Scripted) : Prop :=
  ∃ image, files.readBytes path = .ok image ∧ Scripted.ofImage name image = .ok engine

inductive ImageFault (name : String) (image : ByteArray) : Error → Prop
  | notText (h : Text.Utf8.decode? image = none) :
      ImageFault name image (.imageNotText name ((Text.Utf8.fault? image.toList).getD (.incomplete 0)))
  | malformed {text : String} {fault : Json.Fault} (isText : Text.Utf8.decode? image = some text)
      (h : decodeText Trace.decode text = .error fault) :
      ImageFault name image (.payload "trace file" fault)
  | badKey {text : String} {trace : Trace} {key : String} {fault : NumeralFault}
      (isText : Text.Utf8.decode? image = some text) (isTrace : decodeText Trace.decode text = .ok trace)
      (h : SymbolTable.FirstBadKey trace.imports key fault) :
      ImageFault name image (.addressKey key fault)

theorem ofImage_cases (name : String) (image : ByteArray) :
    (∃ engine, Scripted.ofImage name image = .ok engine) ∨
      ∃ e, ImageFault name image e ∧ Scripted.ofImage name image = .error e := by
  simp only [Scripted.ofImage, Scripted.imageText]
  cases ht : Text.Utf8.decode? image with
  | none => exact .inr ⟨_, .notText ht, rfl⟩
  | some text =>
      simp only
      cases hd : decodeText Trace.decode text with
      | error fault => exact .inr ⟨_, .malformed ht hd, rfl⟩
      | ok trace =>
          simp only
          rcases SymbolTable.ofKeys_cases trace.imports with ⟨symbols, hk⟩ | ⟨key, fault, hbad, hk⟩
          · rw [hk]
            exact .inl ⟨_, rfl⟩
          · rw [hk]
            exact .inr ⟨_, .badKey ht hd hbad, rfl⟩

inductive TraceFault (files : Files.Tree) (path name : String) : Error → Prop
  | unreadable {cause : Files.Fault} (h : files.readBytes path = .error cause) :
      TraceFault files path name (.unreadable path cause)
  | image {image : ByteArray} {e : Error} (read : files.readBytes path = .ok image)
      (h : ImageFault name image e) : TraceFault files path name e

namespace Script

def Means (lines : List (List Char)) (rs : List DebugRequest) : Prop :=
  List.Forall₂ (fun line r => decodeText DebugRequest.decode (String.ofList line) = .ok r)
    (lines.filter fun line => !isIdle line) rs

structure FirstBadLine (lines : List (List Char)) (n : Nat) (fault : Json.Fault) : Prop where
  bad : ∃ line, lines[n]? = some line ∧ isIdle line = false ∧
    decodeText DebugRequest.decode (String.ofList line) = .error fault
  first : ∀ line ∈ lines.take n, isIdle line = false →
    ∃ r, decodeText DebugRequest.decode (String.ofList line) = .ok r

def readFrom (k : Nat) (lines : List (List Char)) : Except Error (List DebugRequest) :=
  ((lines.zipIdx k).filterMap fun (line, n) => if isIdle line then none else some (n, line)).mapM
    fun (n, line) => readLine n line

theorem FirstBadLine.cons {line : List Char} {lines : List (List Char)} {n : Nat} {fault : Json.Fault}
    (h : FirstBadLine lines n fault)
    (hline : isIdle line = false → ∃ r, decodeText DebugRequest.decode (String.ofList line) = .ok r) :
    FirstBadLine (line :: lines) (n + 1) fault :=
  ⟨h.bad, List.forall_mem_cons.mpr ⟨hline, h.first⟩⟩

theorem Means.length_eq {lines : List (List Char)} {rs : List DebugRequest} (h : Means lines rs) :
    rs.length = lines.countP fun line => !isIdle line := by
  rw [List.countP_eq_length_filter]
  exact (List.Forall₂.length_eq h).symm

inductive Asks (files : Files.Tree) : Option String → List DebugRequest → Prop
  | unscripted : Asks files none [.start]
  | scripted {path text : String} {rs : List DebugRequest} (read : files.readText path = .ok text)
      (h : Means (Text.lines text.toList) rs) : Asks files (some path) rs

inductive Fault (files : Files.Tree) (path : String) : Error → Prop
  | unreadable {cause : Files.Fault} (h : files.readText path = .error cause) :
      Fault files path (.unreadable path cause)
  | badLine {text : String} {n : Nat} {fault : Json.Fault} (read : files.readText path = .ok text)
      (h : FirstBadLine (Text.lines text.toList) n fault) :
      Fault files path (.payload s!"script line {n + 1}" fault)

def requestCount (files : Files.Tree) : Option String → Nat
  | none => 1
  | some path =>
      match files.readText path with
      | .ok text => (Text.lines text.toList).countP fun line => !isIdle line
      | .error _ => 0

theorem Asks.length_eq {files : Files.Tree} {script : Option String} {rs : List DebugRequest}
    (h : Asks files script rs) : rs.length = requestCount files script := by
  cases h with
  | unscripted => rfl
  | scripted read h =>
      simp only [requestCount, read]
      exact h.length_eq

end Script

inductive LabelsFault (files : Files.Tree) (path : String) : Error → Prop
  | unreadable {cause : Files.Fault} (h : files.readText path = .error cause) :
      LabelsFault files path (.unreadable path cause)
  | malformed {text : String} {fault : Json.Fault} (read : files.readText path = .ok text)
      (h : decodeText (.table .string) text = .error fault) :
      LabelsFault files path (.payload "import table" fault)
  | badKey {text : String} {raw : Table String String} {key : String} {fault : NumeralFault}
      (read : files.readText path = .ok text) (isTable : decodeText (.table .string) text = .ok raw)
      (h : SymbolTable.FirstBadKey raw key fault) : LabelsFault files path (.addressKey key fault)

end CommandLine

end RunControl
