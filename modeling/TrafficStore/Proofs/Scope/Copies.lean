import TrafficStore.Proofs.Engine.Isolation
import TrafficStore.Scope

namespace TrafficStore

structure Copies where
  committed : Content
  copies : String → Option Content := fun _ => none
  writer : Option String := none

namespace Copies

def close (m : Copies) (name : String) : Copies :=
  { m with
    copies := fun n => if n = name then none else m.copies n
    writer := if m.writer = some name then none else m.writer }

def hold (m : Copies) (name : String) (isWriter : Bool) (c : Content) : Copies :=
  { m with
    copies := fun n => if n = name then some c else m.copies n
    writer := if isWriter then some name else (m.close name).writer }

theorem copies_close (m : Copies) (name n : String) :
    (m.close name).copies n = if n = name then none else m.copies n := rfl

theorem copies_hold (m : Copies) (name : String) (isWriter : Bool) (c : Content) (n : String) :
    (m.hold name isWriter c).copies n = if n = name then some c else m.copies n := rfl

theorem writer_close (m : Copies) (name : String) :
    (m.close name).writer = if m.writer = some name then none else m.writer := rfl

theorem writer_hold (m : Copies) (name : String) (isWriter : Bool) (c : Content) :
    (m.hold name isWriter c).writer =
      if isWriter then some name else (m.close name).writer := rfl

def onCopy {α : Type} (m : Copies) (name : String) (w : CopyM α) (answer : α → ScopeAnswer)
    (failure : StorageError → ScopeAnswer) : ScopeAnswer × Copies :=
  match m.copies name with
  | none => (.refused .noScope, m)
  | some c =>
      match w.run c with
      | (.ok a, c) => (answer a, m.hold name (decide (m.writer = some name)) c)
      | (.error x, c) => (failure x, m.hold name (decide (m.writer = some name)) c)

def onDraft (m : Copies) (name : String) (w : CopyM Unit) : ScopeAnswer × Copies :=
  match m.copies name with
  | none => (.refused .noScope, m)
  | some _ =>
      if m.writer = some name then m.onCopy name w (fun _ => .done) .failed
      else (.refused .readOnly, m)

def step (m : Copies) : ScopeStep → ScopeAnswer × Copies
  | .beginRead name => (.done, m.hold name false m.committed)
  | .beginWrite name =>
      if m.writer.isSome then (.refused .writerActive, m)
      else (.done, m.hold name true m.committed)
  | .commit name =>
      match m.copies name with
      | none => (.refused .noScope, m)
      | some c =>
          if m.writer = some name then (.done, { m with committed := c }.close name)
          else (.done, m.close name)
  | .drop name =>
      match m.copies name with
      | none => (.refused .noScope, m)
      | some _ => (.done, m.close name)
  | .find name table key => m.onCopy name (Copy.find table key) .value .failed
  | .count name table => m.onCopy name (Copy.count table) .count .failed
  | .scan name table limit =>
      m.onCopy name (Copy.scan table) (visit limit) (fun x => .records [] (some x))
  | .create name table => m.onDraft name (Copy.create table)
  | .put name table key value => m.onDraft name (Copy.put table key value)

def scriptStep (m : Copies) : ScriptStep → ScopeAnswer × Copies
  | .scope s => m.step s
  | .sync _ => (.done, m)
  | .restart => (.done, { committed := m.committed })

def run (m : Copies) : List ScriptStep → List ScopeAnswer × Copies
  | [] => ([], m)
  | s :: ss =>
      let (a, m) := m.scriptStep s
      let (as, m) := m.run ss
      (a :: as, m)

variable {m : Copies} {name : String} {c : Content} {α : Type} {w : CopyM α}
  {answer : α → ScopeAnswer} {failure : StorageError → ScopeAnswer}

theorem onCopy_none (h : m.copies name = none) :
    m.onCopy name w answer failure = (.refused .noScope, m) := by
  rw [onCopy, h]

theorem onCopy_ok {a : α} {c' : Content} (h : m.copies name = some c)
    (hw : w.run c = (.ok a, c')) : m.onCopy name w answer failure =
      (answer a, m.hold name (decide (m.writer = some name)) c') := by
  simp only [onCopy, h, hw]

theorem onCopy_error {x : StorageError} {c' : Content} (h : m.copies name = some c)
    (hw : w.run c = (.error x, c')) : m.onCopy name w answer failure =
      (failure x, m.hold name (decide (m.writer = some name)) c') := by
  simp only [onCopy, h, hw]

end Copies

end TrafficStore
