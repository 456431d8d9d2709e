import TrafficStore.Work

namespace TrafficStore.Work

variable {ς τ υ ξ ζ α β : Type}

def FailsOnly (P : ξ → Prop) (m : Work ς ξ α) : Prop := ∀ s x, (m.run s).1 = .error x → P x

namespace FailsOnly

variable {P : ξ → Prop}

theorem pure (a : α) : FailsOnly P (Pure.pure a : Work ς ξ α) := fun _ _ h => nomatch h

theorem update (f : ς → ς) : FailsOnly P (Work.update f : Work ς ξ Unit) := fun _ _ h => nomatch h

theorem ofExcept {r : Except ξ α} (h : ∀ x, r = .error x → P x) :
    FailsOnly P (Work.ofExcept r : Work ς ξ α) := fun _ => h

theorem bind {m : Work ς ξ α} {f : α → Work ς ξ β} (hm : FailsOnly P m)
    (hf : ∀ a, FailsOnly P (f a)) : FailsOnly P (m >>= f) := by
  intro s x h
  rw [run_bind] at h
  cases hrun : m.run s with
  | mk r s' =>
      rw [hrun] at h
      cases r with
      | ok a => exact hf a s' x h
      | error y =>
          cases h
          exact hm s x (by rw [hrun])

theorem map {m : Work ς ξ α} (hm : FailsOnly P m) (f : α → β) : FailsOnly P (f <$> m) := by
  rw [← bind_pure_comp]
  exact hm.bind (fun a => .pure (f a))

theorem within {m : Work τ ξ α} (hm : FailsOnly P m) (part : ς → τ) (put : τ → ς → ς) :
    FailsOnly P (m.within part put) := fun s => hm (part s)

end FailsOnly

def Preserves (view : ς → τ) (m : Work ς ξ α) : Prop := ∀ s, view (m.run s).2 = view s

namespace Preserves

variable {view : ς → τ}

theorem pure (a : α) : Preserves view (Pure.pure a : Work ς ξ α) := fun _ => rfl

theorem fail (x : ξ) : Preserves view (Work.fail x : Work ς ξ α) := fun _ => rfl

theorem state : Preserves view (Work.state : Work ς ξ ς) := fun _ => rfl

theorem ofExcept (r : Except ξ α) : Preserves view (Work.ofExcept r) := fun _ => rfl

theorem bind {m : Work ς ξ α} {f : α → Work ς ξ β} (hm : Preserves view m)
    (hf : ∀ a, Preserves view (f a)) : Preserves view (m >>= f) := by
  intro s
  have hm := hm s
  rw [run_bind]
  cases hrun : m.run s with
  | mk r s' =>
      rw [hrun] at hm
      cases r with
      | ok a => exact (hf a s').trans hm
      | error x => exact hm

end Preserves

end TrafficStore.Work
