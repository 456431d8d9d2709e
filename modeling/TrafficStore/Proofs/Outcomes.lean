import Mathlib.Data.List.Forall2

namespace TrafficStore

section Except

variable {ξ α β : Type} {r : Except ξ α} {g : α → β}

theorem eq_ok_of_toOption {a : α} (h : r.toOption = some a) : r = .ok a := by
  cases r with
  | error x => cases h
  | ok b => exact congrArg Except.ok (Option.some.inj h)

theorem map_eq_ok {b : β} (h : r.map g = .ok b) : ∃ a, r = .ok a ∧ g a = b := by
  cases r with
  | error x => cases h
  | ok a => exact ⟨a, rfl, Except.ok.inj h⟩

theorem map_eq_error {x : ξ} (h : r.map g = .error x) : r = .error x := by
  cases r with
  | error y => exact congrArg Except.error (Except.error.inj h)
  | ok a => cases h

theorem mapM_eq_ok_iff {f : α → Except ξ β} {l : List α} {bs : List β} :
    l.mapM f = .ok bs ↔ List.Forall₂ (fun a b => f a = .ok b) l bs := by
  induction l generalizing bs with
  | nil =>
      rw [List.mapM_nil, List.forall₂_nil_left_iff]
      exact ⟨fun h => (Except.ok.inj h).symm, fun h => h ▸ rfl⟩
  | cons a l ih =>
      rw [List.mapM_cons, List.forall₂_cons_left_iff]
      cases f a with
      | error x => simp [bind, Except.bind]
      | ok b =>
          cases hl : l.mapM f with
          | error x => simp [bind, Except.bind, ← ih, hl]
          | ok rest => simp [bind, Except.bind, pure, Except.pure, ← ih, hl, eq_comm]

end Except

section Option

variable {α β : Type} {f g : α → Option β} {l : List α}

theorem mapM_eq_some_iff {bs : List β} :
    l.mapM f = some bs ↔ List.Forall₂ (fun a b => f a = some b) l bs := by
  induction l generalizing bs with
  | nil =>
      rw [List.mapM_nil, List.forall₂_nil_left_iff]
      exact ⟨fun h => (Option.some.inj h).symm, fun h => h ▸ rfl⟩
  | cons a l ih =>
      rw [List.mapM_cons]
      constructor
      · intro h
        obtain ⟨b, hb, h⟩ := Option.bind_eq_some_iff.1 h
        obtain ⟨rest, hrest, h⟩ := Option.bind_eq_some_iff.1 h
        rw [← Option.some.inj h]
        exact .cons hb (ih.1 hrest)
      · rintro (_ | ⟨hb, hrest⟩)
        rw [hb, ih.2 hrest]
        rfl

theorem mapM_eq_none_iff : l.mapM f = none ↔ ∃ a ∈ l, f a = none := by
  induction l with
  | nil => simp
  | cons a l ih =>
      rw [List.mapM_cons, List.exists_mem_cons_iff, ← ih]
      cases f a with
      | none => exact ⟨fun _ => .inl rfl, fun _ => rfl⟩
      | some b =>
          cases l.mapM f with
          | none => exact ⟨fun _ => .inr rfl, fun _ => rfl⟩
          | some bs => simp

theorem mapM_congr (h : ∀ a ∈ l, f a = g a) : l.mapM f = l.mapM g := by
  induction l with
  | nil => rfl
  | cons a l ih =>
      obtain ⟨ha, hl⟩ := List.forall_mem_cons.1 h
      rw [List.mapM_cons, List.mapM_cons, ha, ih hl]

end Option

end TrafficStore
