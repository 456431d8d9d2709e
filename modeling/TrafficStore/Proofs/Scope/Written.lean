import Mathlib.Algebra.Order.Ring.Nat
import TrafficStore.Scope

namespace TrafficStore

namespace SortedMap

variable {κ ν : Type} [Ordered κ]

def weigh (f : κ → ν → Nat) (m : SortedMap κ ν) : Nat := (m.entries.map (fun e => f e.1 e.2)).sum

theorem sum_insertEntry (f : κ → ν → Nat) (k : κ) (v : ν) :
    ∀ {es : List (κ × ν)}, es.Pairwise (fun a b => Ordered.precedes a.1 b.1 = true) →
      ((insertEntry k v es).map (fun e => f e.1 e.2)).sum + ((findEntry k es).map (f k)).getD 0 =
        (es.map (fun e => f e.1 e.2)).sum + f k v := by
  intro es
  induction es with
  | nil => intro _; simp [insertEntry, findEntry]
  | cons x xs ih =>
      intro h
      by_cases hk : Ordered.precedes k x.1 = true
      · rw [insertEntry, if_pos hk, findEntry_of_precedes h hk]
        simp only [List.map_cons, List.sum_cons, Option.map_none, Option.getD_none]
        omega
      · rw [insertEntry, if_neg hk]
        by_cases hx : Ordered.precedes x.1 k = true
        · have hs : ¬ Ordered.same k x.1 = true := by simp [Ordered.same, hx]
          have hrest := ih (List.pairwise_cons.1 h).2
          rw [if_pos hx, findEntry, if_neg hs]
          simp only [List.map_cons, List.sum_cons]
          omega
        · have he : k = x.1 :=
            Ordered.eq_of_neither (Bool.eq_false_iff.2 hk) (Bool.eq_false_iff.2 hx)
          rw [if_neg hx, findEntry, if_pos (Ordered.same_iff.2 he)]
          simp only [List.map_cons, List.sum_cons, Option.map_some, Option.getD_some, he]
          omega

theorem weigh_insert (f : κ → ν → Nat) (m : SortedMap κ ν) (k : κ) (v : ν) :
    (m.insert k v).weigh f + ((m.find? k).map (f k)).getD 0 = m.weigh f + f k v :=
  sum_insertEntry f k v m.sorted

end SortedMap

def Table.bytes (t : Table) : Nat := t.weigh (fun key value => key.length + value.length)

def Content.bytes (c : Content) : Nat := c.weigh (fun _ t => Table.bytes t)

theorem Table.bytes_insert_le (t : Table) (key value : Bytes) :
    Table.bytes (t.insert key value) ≤ Table.bytes t + (key.length + value.length) :=
  Nat.le_of_add_right_le (Nat.le_of_eq (t.weigh_insert _ key value))

theorem Content.bytes_create {c : Content} {table : String} (h : c.find? table = none) :
    Content.bytes (c.insert table .empty) = Content.bytes c := by
  have hw := c.weigh_insert (fun _ t => Table.bytes t) table .empty
  rw [h] at hw
  exact hw

theorem Content.bytes_put_le {c : Content} {table : String} {t : Table}
    (h : c.find? table = some t) (key value : Bytes) :
    Content.bytes (c.insert table (t.insert key value)) ≤
      Content.bytes c + (key.length + value.length) := by
  have hw := c.weigh_insert (fun _ t => Table.bytes t) table (t.insert key value)
  rw [h] at hw
  have ht := Table.bytes_insert_le t key value
  simp only [Option.map_some, Option.getD_some] at hw
  change Content.bytes _ + _ = Content.bytes c + _ at hw
  omega

structure Written where
  committed : Nat := 0
  writer : Option (String × Nat) := none
  deriving DecidableEq

namespace Written

def pending (w : Written) : Nat := (w.writer.map Prod.snd).getD 0

def used (w : Written) : Nat := w.committed + w.pending

def forget (w : Written) (name : String) : Written :=
  { w with writer := w.writer.filter (fun p => p.1 ≠ name) }

def publish (w : Written) (name : String) : Written :=
  { w.forget name with
    committed := w.committed + ((w.writer.filter (fun p => p.1 = name)).map Prod.snd).getD 0 }

def add (w : Written) (n : Nat) : Written :=
  { w with writer := w.writer.map (fun p => (p.1, p.2 + n)) }

def note (w : Written) : ScriptStep → ScopeAnswer → Written
  | .scope (.beginRead name), .done => w.forget name
  | .scope (.beginWrite name), .done => { w with writer := some (name, 0) }
  | .scope (.commit name), .done => w.publish name
  | .scope (.drop name), .done => w.forget name
  | .scope (.put _ _ key value), .done => w.add (key.length + value.length)
  | .restart, _ => { w with writer := none }
  | _, _ => w

def noteAll (w : Written) : List ScriptStep → List ScopeAnswer → Written
  | s :: ss, a :: as => (w.note s a).noteAll ss as
  | _, _ => w

theorem forget_of_ne {w : Written} {name : String} (h : ∀ a, w.writer ≠ some (name, a)) :
    w.forget name = w := by
  obtain ⟨c, _ | ⟨n, a⟩⟩ := w
  · rfl
  · have hn : n ≠ name := fun he => h a (by rw [he])
    simp [forget, Option.filter, hn]

theorem writer_forget_eq_some {w : Written} {name n : String} {a : Nat} :
    (w.forget name).writer = some (n, a) ↔ n ≠ name ∧ w.writer = some (n, a) := by
  rw [forget, Option.filter_eq_some_iff]
  simp [and_comm]

theorem publish_self {w : Written} {name : String} {a : Nat} (h : w.writer = some (name, a)) :
    w.publish name = { committed := w.committed + a } := by
  simp [publish, forget, h, Option.filter]

theorem publish_of_ne {w : Written} {name : String} (h : ∀ a, w.writer ≠ some (name, a)) :
    w.publish name = w := by
  have hf := forget_of_ne h
  obtain ⟨c, _ | ⟨n, a⟩⟩ := w
  · rfl
  · have hn : n ≠ name := fun he => h a (by rw [he])
    simp [publish, hf, Option.filter, hn]

theorem add_self {w : Written} {name : String} {a : Nat} (h : w.writer = some (name, a)) (n : Nat) :
    w.add n = { w with writer := some (name, a + n) } := by
  rw [add, h]
  rfl

theorem used_eq {w : Written} {name : String} {a : Nat} (h : w.writer = some (name, a)) :
    w.used = w.committed + a := by
  rw [used, pending, h]
  rfl

theorem committed_le_note (w : Written) (s : ScriptStep) (a : ScopeAnswer) :
    w.committed ≤ (w.note s a).committed := by
  unfold note
  split
  all_goals simp [forget, publish, add]

end Written

/-- Keys and values are slices of memory, which has less than half of all addresses for one. -/
def ScriptStep.short : ScriptStep → Prop
  | .scope (.put _ _ key value) => key.length < 2 ^ 63 ∧ value.length < 2 ^ 63
  | _ => True

end TrafficStore
