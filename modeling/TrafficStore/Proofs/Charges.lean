import TrafficStore.Proofs.Cataloguing
import TrafficStore.Proofs.LastWrite

namespace TrafficStore

namespace Work

variable {ς ξ α β : Type} {view : ς → UInt64}

def Adds (view : ς → UInt64) (m : Work ς ξ α) (n : α → UInt64) : Prop :=
  ∀ s a s', m.run s = (.ok a, s') → view s' = view s + n a

namespace Adds

variable {m : Work ς ξ α} {f : α → Work ς ξ β} {n : α → UInt64} {n' : β → UInt64}

theorem of_preserves (h : m.Preserves view) : m.Adds view (fun _ => 0) := by
  intro s a s' hrun
  have h := h s
  rw [hrun] at h
  rw [h, UInt64.add_zero]

theorem pure {b : β} (h : n' b = 0) : (Pure.pure b : Work ς ξ β).Adds view n' := by
  intro s a s' hrun
  cases hrun
  rw [h, UInt64.add_zero]

theorem after (hm : m.Preserves view) (hf : ∀ a, (f a).Adds view n') :
    (m >>= f).Adds view n' := by
  intro s b s' hrun
  rw [run_bind] at hrun
  have hm := hm s
  cases hrun₁ : m.run s with
  | mk r s₁ =>
      rw [hrun₁] at hrun hm
      cases r with
      | error x => cases hrun
      | ok a => rw [hf a s₁ b s' hrun, hm]

theorem before (hm : m.Adds view n) (hf : ∀ a, (f a).Preserves view)
    (hn : ∀ a s b s', (f a).run s = (.ok b, s') → n' b = n a) : (m >>= f).Adds view n' := by
  intro s b s' hrun
  rw [run_bind] at hrun
  cases hrun₁ : m.run s with
  | mk r s₁ =>
      rw [hrun₁] at hrun
      cases r with
      | error x => cases hrun
      | ok a =>
          have hkept : view s' = view s₁ := by rw [← hf a s₁, show (f a).run s₁ = _ from hrun]
          rw [hkept, hm s a s₁ hrun₁, hn a s₁ b s' hrun]

theorem map {g : α → β} (hm : m.Adds view n) (hn : ∀ a, n' (g a) = n a) :
    (g <$> m).Adds view n' := by
  rw [← bind_pure_comp]
  refine hm.before (fun a => .pure (g a)) (fun a s b s' hrun => ?_)
  cases hrun
  exact hn a

end Adds

end Work

namespace Volatile

open Work

def usedIn (s : Writer × Volatile) : UInt64 := used s.2 s.1

def usedOf (env : Environment Volatile) : UInt64 := env.engine.size

theorem preserves_field {α : Type} (t : TableId) (f : Format α) (k : Key) :
    (t.field rereading f k).Preserves usedIn := by
  refine .bind (fun s => ?_) (fun raw => .ofExcept _)
  simp only [rereading]
  split <;> rfl

theorem preserves_count (table : String) : (rereading.count table).Preserves usedIn := by
  intro s
  simp only [rereading]
  split <;> rfl

theorem adds_put (table : String) (key value : Bytes) :
    (put table key value).Adds usedIn (fun _ => Writer.recordSize key value) := by
  intro s a s' hrun
  simp only [put] at hrun
  split at hrun
  · split at hrun
    · cases hrun
    · cases hrun
      exact (UInt64.add_assoc _ _ _).symm
  · cases hrun

theorem adds_put_pure {α : Type} {n : α → UInt64} {table : String} {key value : Bytes} {a : α}
    (h : n a = Writer.recordSize key value) :
    (do put table key value; return a : ScopeM Volatile Writer α).Adds usedIn n := by
  refine (adds_put table key value).before (fun _ => .pure a) (fun _ s b s' hrun => ?_)
  cases hrun
  exact h

theorem adds_write {α : Type} {op : ScopeM Volatile Writer α} {n : α → UInt64}
    (h : op.Adds usedIn n) : (Environment.write op).Adds usedOf n := by
  intro env a env' hrun
  rw [run_write_eq] at hrun
  cases hop : op.run ({ base := env.engine.content }, env.engine) with
  | mk r s =>
      rw [hop] at hrun
      cases r with
      | error x => cases hrun
      | ok b =>
          cases hrun
          exact (h _ a _ hop).trans (congrArg (· + n a) (UInt64.add_zero _))

theorem adds_accumulate {α : Type} (t : TableId) (f : Format α) (zero : α) (add : α → α → α)
    (k : Key) (delta : α) : (t.accumulate f zero add k delta).Adds usedOf
      (fun sum => Writer.recordSize k.bytes (f.encode sum)) :=
  adds_write (.after (preserves_field t f k) (fun _ => adds_put_pure rfl))

theorem adds_raise (t : TableId) (k : Key) (candidate : UInt64) :
    (t.raise k candidate).Adds usedOf (fun raised =>
      if raised then Writer.recordSize k.bytes (Format.word.encode candidate) else 0) := by
  refine adds_write (.after (preserves_field t .word k) (fun v => ?_))
  split
  · exact adds_put_pure rfl
  · exact .pure rfl

theorem adds_allocate (t : TableId) (name : String) :
    (t.allocate name).Adds usedOf (fun a : Allocation =>
      if a.isNew then Writer.recordSize (Key.name name).bytes (Format.int.encode a.id) else 0) := by
  have hop : (t.allocateIn name : ScopeM Volatile Writer Allocation).Adds usedIn
      (fun a : Allocation => if a.isNew then
        Writer.recordSize (Key.name name).bytes (Format.int.encode a.id) else 0) := by
    refine .after (preserves_field t .int (.name name)) (fun found => ?_)
    cases found with
    | some id => exact .pure rfl
    | none =>
        refine .after (preserves_count t.name) (fun n => ?_)
        cases TableId.nextId? n with
        | none => exact fun s a s' hrun => nomatch hrun
        | some id => exact adds_put_pure rfl
  refine (adds_write hop).before (fun a => ?_) (fun a env b env' hrun => ?_)
  · cases a with
    | existing id => exact .pure _
    | inserted id => exact .bind (fun _ => rfl) (fun _ => .pure _)
  · cases a <;> cases hrun <;> rfl

end Volatile

namespace Access

open Volatile

def charge (a : Access) (r : Reply) : UInt64 :=
  (a.record? r).elim 0 (fun e => Writer.recordSize e.1 e.2)

theorem adds_run (t : TableId) (a : Access) : (a.run t).Adds usedOf a.charge := by
  have hlook : ∀ {α : Type} {m : StoreM Volatile α} (g : α → Reply), Looks m →
      (∀ r, a.charge r = 0) → (g <$> m).Adds usedOf a.charge := by
    intro α m g h hfree
    have hsame : m.Preserves usedOf := fun env => congrArg Prod.snd (h env)
    exact (Work.Adds.of_preserves hsame).map (fun _ => hfree _)
  cases a with
  | findInt k => exact hlook _ (t.looks_find .int k) (fun _ => rfl)
  | findText k => exact hlook _ (t.looks_find .text k) (fun _ => rfl)
  | intOrZero k => exact hlook _ (t.looks_findOr .int 0 k) (fun _ => rfl)
  | wordOrZero k => exact hlook _ (t.looks_findOr .word 0 k) (fun _ => rfl)
  | cardinality => exact hlook _ t.looks_cardinality (fun _ => rfl)
  | dump panel kind order => exact hlook _ (t.looks_dump panel kind order) (fun _ => rfl)
  | putInt k n => exact (adds_write (adds_put t.name k.bytes _)).map (fun _ => rfl)
  | putWord k n => exact (adds_write (adds_put t.name k.bytes _)).map (fun _ => rfl)
  | putText k s => exact (adds_write (adds_put t.name k.bytes _)).map (fun _ => rfl)
  | addInt k delta => exact (adds_accumulate t .int _ _ k delta).map (fun _ => rfl)
  | addWord k delta => exact (adds_accumulate t .word _ _ k delta).map (fun _ => rfl)
  | raise k candidate =>
      exact (adds_raise t k candidate).map (fun raised => by cases raised <;> rfl)
  | allocate name => exact (adds_allocate t name).map (fun a => by cases a <;> rfl)

end Access

namespace Accessed

def charge (h : Accessed) : UInt64 :=
  match h.answer with
  | .ok r => h.access.charge r
  | .error _ => 0

theorem size_run (t : TableId) (a : Access) (env : Environment Volatile) :
    ((a.run t).run env).2.engine.size =
      env.engine.size + (Accessed.mk t a ((a.run t).run env).1).charge := by
  cases hrun : (a.run t).run env with
  | mk r env' =>
      cases r with
      | ok r => exact a.adds_run t env r env' hrun
      | error x =>
          have hstanding := a.rollsBack_run t env x env' hrun
          exact (congrArg Prod.snd hstanding).trans (UInt64.add_zero _).symm

theorem size_runs (as : List (TableId × Access)) (env : Environment Volatile) :
    (Access.runs as env).2.engine.size =
      env.engine.size + ((Access.runs as env).1.map charge).foldr (· + ·) 0 := by
  induction as generalizing env with
  | nil => exact (UInt64.add_zero _).symm
  | cons a as ih =>
      rw [Access.runs, ih, size_run, UInt64.add_assoc, List.map_cons, List.foldr_cons]

theorem charge_raise (t : TableId) (k : Key) (d : UInt64) (b : Bool) :
    (Accessed.mk t (.raise k d) (.ok (.flag b))).charge =
      if b then UInt64.ofNat (k.bytes.length + 8) else 0 := by
  cases b <;> rfl

end Accessed

end TrafficStore
