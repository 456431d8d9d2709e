import TrafficStore.Proofs.Engine.Durable
import TrafficStore.Proofs.Engine.Volatile
import TrafficStore.Proofs.Scope.Mirror

namespace TrafficStore

def ScopeAnswer.isFull (a : ScopeAnswer) : Bool := a.failure?.any StorageError.isFull

theorem ScopeAnswer.not_isFull {a : ScopeAnswer} {x : StorageError} (ha : a.isFull = false)
    (hx : a.failure? = some x) : ¬ x.isFull = true := by
  rw [isFull, hx] at ha
  exact Bool.eq_false_iff.1 ha

open ScopeViews

theorem Volatile.run_eq_copies (e : Volatile) (steps : List ScriptStep)
    (hroom : ∀ a ∈ (Desk.run { engine := e } steps).1, a.isFull = false) :
    (Desk.run { engine := e } steps).1 = (Copies.run { committed := e.content } steps).1 :=
  (ScopeViews.run_eq_copies steps (mirror_start e trivial) (fun _ _ _ _ => trivial)
    (fun h => nomatch h) (fun a ha _ hx => ScopeAnswer.not_isFull (hroom a ha) hx)).1

theorem DatabaseEngine.run_eq_copies {δ : Type} [Database δ] [LawfulDatabase δ]
    (settings : Settings) (d : δ) (steps : List ScriptStep)
    (hnames : ∀ s ∈ steps, s.table? ≠ some "")
    (hsync : Desk.syncsAlone { engine := ofDatabase settings d } steps = true)
    (hroom : ∀ a ∈ (Desk.run { engine := ofDatabase settings d } steps).1, a.isFull = false)
    (hworks : ∀ a ∈ (Desk.run { engine := ofDatabase settings d } steps).1, ∀ stage reason,
      a.failure? = some (.engine stage reason) → ¬ DatabaseViews.Fails δ reason) :
    (Desk.run { engine := ofDatabase settings d } steps).1 =
      (Copies.run { committed := Database.content d } steps).1 := by
  have hstart := mirror_start (ofDatabase settings d) (fun hn => sound_ofDatabase settings d hn)
  have htakes : ∀ s ∈ steps, ∀ t, s.table? = some t → Takes (DatabaseEngine δ) t := by
    intro s hs t ht he
    exact hnames s hs (he ▸ ht)
  refine (ScopeViews.run_eq_copies steps hstart htakes (fun _ => hsync) ?_).1
  intro a ha x hx hfault
  rcases hfault with hfull | ⟨stage, reason, rfl, hfails⟩
  · exact ScopeAnswer.not_isFull (hroom a ha) hx hfull
  · exact hworks a ha stage reason hx hfails

def snapshotScript : List ScriptStep :=
  [.scope (.beginWrite "w"), .scope (.create "w" "t"), .scope (.put "w" "t" [1] [2]),
    .scope (.beginRead "before"), .scope (.count "w" "t"), .scope (.commit "w"), .sync true,
    .scope (.beginRead "after"), .scope (.find "before" "t" [1]), .scope (.find "after" "t" [1]),
    .restart, .scope (.beginRead "later"), .scope (.scan "later" "t" none)]

theorem DatabaseEngine.run_eq_run_volatile {δ : Type} [Database δ] [LawfulDatabase δ]
    (settings : Settings) (d : δ) (v : Volatile) (hcontent : v.content = Database.content d)
    (steps : List ScriptStep) (hnames : ∀ s ∈ steps, s.table? ≠ some "")
    (hsync : Desk.syncsAlone { engine := ofDatabase settings d } steps = true)
    (hroom : ∀ a ∈ (Desk.run { engine := ofDatabase settings d } steps).1, a.isFull = false)
    (hroom' : ∀ a ∈ (Desk.run { engine := v } steps).1, a.isFull = false)
    (hworks : ∀ a ∈ (Desk.run { engine := ofDatabase settings d } steps).1, ∀ stage reason,
      a.failure? = some (.engine stage reason) → ¬ DatabaseViews.Fails δ reason) :
    (Desk.run { engine := ofDatabase settings d } steps).1 =
      (Desk.run { engine := v } steps).1 := by
  rw [DatabaseEngine.run_eq_copies settings d steps hnames hsync hroom hworks,
    v.run_eq_copies steps hroom', hcontent]

theorem DatabaseEngine.run_eq_run_volatile_snapshotScript :
    (∀ a ∈ (Desk.run { engine := ofDatabase {} ({} : TableFile) } snapshotScript).1,
      a.isFull = false) ∧
    (Desk.run { engine := ofDatabase {} ({} : TableFile) } snapshotScript).1 =
      (Desk.run { engine := ({ maxSize := 64 } : Volatile) } snapshotScript).1 := by
  have hroom : ∀ a ∈ (Desk.run { engine := ofDatabase {} ({} : TableFile) } snapshotScript).1,
      a.isFull = false := by decide +kernel
  have hroom' : ∀ a ∈ (Desk.run { engine := ({ maxSize := 64 } : Volatile) } snapshotScript).1,
      a.isFull = false := by decide
  have hsync : Desk.syncsAlone { engine := ofDatabase {} ({} : TableFile) } snapshotScript =
      true := by decide +kernel
  have hrun := DatabaseEngine.run_eq_run_volatile {} ({} : TableFile) { maxSize := 64 } rfl
    snapshotScript (by decide) hsync hroom hroom' (fun _ _ _ _ _ => id)
  exact ⟨hroom, hrun⟩

end TrafficStore
