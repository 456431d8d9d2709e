import TrafficStore.Proofs.BadLines
import TrafficStore.Proofs.Effects
import TrafficStore.Proofs.Progress

namespace TrafficStore

open ScopeViews

section Agree

variable {ε ξ ζ α β : Type} [Engine ε] [ScopeViews ε]

structure SameTables (env env' : Environment ε) : Prop where
  sound : Sound env.engine
  sound' : Sound env'.engine
  committed : Engine.committed env.engine = Engine.committed env'.engine

def FailsBy (F : ξ → Prop) (r : Except ξ α) : Prop := ∃ x, r = .error x ∧ F x

def Agree (F : ξ → Prop) (m n : Work (Environment ε) ξ α) : Prop :=
  ∀ env env', SameTables env env' → FailsBy F (m.run env).1 ∨ FailsBy F (n.run env').1 ∨
    (m.run env).1 = (n.run env').1 ∧ SameTables (m.run env).2 (n.run env').2

namespace Agree

variable {F : ξ → Prop} {m n : Work (Environment ε) ξ α} {f g : α → Work (Environment ε) ξ β}

theorem ofExcept (r : Except ξ α) :
    Agree F (Work.ofExcept r : Work (Environment ε) ξ α) (Work.ofExcept r) :=
  fun _ _ h => .inr (.inr ⟨rfl, h⟩)

theorem pure (a : α) : Agree F (Pure.pure a : Work (Environment ε) ξ α) (Pure.pure a) :=
  ofExcept (.ok a)

theorem bind (hm : Agree F m n) (hf : ∀ a, Agree F (f a) (g a)) :
    Agree F (m >>= f) (n >>= g) := by
  intro env env' h
  have hm := hm env env' h
  rw [Work.run_bind, Work.run_bind]
  cases hrun : m.run env with
  | mk r env₁ =>
      cases hrun' : n.run env' with
      | mk r' env₁' =>
          rw [hrun, hrun'] at hm
          rcases hm with ⟨x, rfl, hx⟩ | ⟨x, rfl, hx⟩ | ⟨rfl, h₁⟩
          · exact .inl ⟨x, rfl, hx⟩
          · exact .inr (.inl ⟨x, rfl, hx⟩)
          · cases r with
            | error x => exact .inr (.inr ⟨rfl, h₁⟩)
            | ok a => exact hf a env₁ env₁' h₁

theorem mapFault {G : ζ → Prop} {g : ξ → ζ} (hm : Agree F m n) (hg : ∀ x, F x → G (g x)) :
    Agree G (m.mapFault g) (n.mapFault g) := by
  intro env env' h
  rw [Work.run_mapFault, Work.run_mapFault]
  rcases hm env env' h with ⟨x, hr, hx⟩ | ⟨x, hr, hx⟩ | ⟨hr, h₁⟩
  · exact .inl ⟨g x, by rw [hr]; rfl, hg x hx⟩
  · exact .inr (.inl ⟨g x, by rw [hr]; rfl, hg x hx⟩)
  · exact .inr (.inr ⟨by rw [hr], h₁⟩)

theorem of_serves {m n : StoreM ε α} {f : Change α} (hm : Serves m f) (hn : Serves n f) :
    Agree (ScopeViews.Fault ε) m n := by
  intro env env' h
  obtain ⟨r, env₁, hrun, hs₁, -, hr⟩ := hm env h.sound
  obtain ⟨r', env₁', hrun', hs₁', -, hr'⟩ := hn env' h.sound'
  rw [hrun, hrun']
  rcases hr with ⟨hx, -⟩ | hr
  · exact .inl hx
  · rcases hr' with ⟨hx, -⟩ | hr'
    · exact .inr (.inl hx)
    · rw [h.committed, hr'] at hr
      obtain ⟨rfl, hc⟩ := Prod.mk.inj hr
      exact .inr (.inr ⟨rfl, hs₁, hs₁', hc.symm⟩)

end Agree

end Agree

namespace Ingest

open Text (Ended crlf carriageReturn)

def inTurn {ε : Type} [Engine ε] (cat : Catalog) (a b : Bytes) : IngestM ε Nat := do
  let n ← run cat a
  let m ← run cat b
  return n + m

def Raised (ε : Type) [Engine ε] [ScopeViews ε] (x : IngestFault) : Prop :=
  ∃ e, x = .storage e ∧ ScopeViews.Fault ε e

structure Composes (ε : Type) [Engine ε] [ScopeViews ε] : Prop where
  agree : ∀ cat {a b : Bytes}, Ended a → (∀ l ∈ Text.lines b, Good l) →
    Agree (Raised ε) (run cat (a ++ b) : IngestM ε Nat) (inTurn cat a b)
  sum : ∀ cat {a b : Bytes} {n m : Nat} {env env₁ env₂ : Environment ε}, Ended a →
    (∀ l ∈ Text.lines b, Good l) → Sound env.engine → (run cat a).run env = (.ok n, env₁) →
    (run cat b).run env₁ = (.ok m, env₂) → FailsBy (Raised ε) ((run cat (a ++ b)).run env).1 ∨
      ((run cat (a ++ b)).run env).1 = .ok (n + m) ∧
      Engine.committed ((run cat (a ++ b)).run env).2.engine = Engine.committed env₂.engine

section Parts

variable {ε : Type} [Engine ε] {a b : Bytes}

theorem run_append (cat : Catalog) (ha : Ended a) (hb : ∀ l ∈ Text.lines b, Good l) :
    (run cat (a ++ b) : IngestM ε Nat) = (do
      let n ← lines cat 1 (Text.lines a)
      let m ← lines cat 1 (Text.lines b)
      (Environment.sync true).mapFault .storage
      return n + m) := by
  rw [run, Text.lines_append ha, lines_append, lines_renumber cat hb (1 + (Text.lines a).length) 1]
  simp only [bind_assoc, pure_bind]

theorem inTurn_eq (cat : Catalog) (a b : Bytes) :
    (inTurn cat a b : IngestM ε Nat) = (do
      let n ← lines cat 1 (Text.lines a)
      (Environment.sync true).mapFault .storage
      let m ← lines cat 1 (Text.lines b)
      (Environment.sync true).mapFault .storage
      return n + m) := by
  simp only [inTurn, run, bind_assoc, pure_bind]

theorem run_crlf (cat : Catalog) {input : Bytes} (h : carriageReturn ∉ input) :
    (run cat (crlf input) : IngestM ε Nat) = run cat input := by
  rw [run, run, Text.lines_crlf h]

end Parts

theorem sync_volatile :
    ((Environment.sync true).mapFault .storage : IngestM Volatile Unit) = pure () := rfl

theorem run_append_volatile (cat : Catalog) {a b : Bytes} (ha : Ended a)
    (hb : ∀ l ∈ Text.lines b, Good l) :
    (run cat (a ++ b) : IngestM Volatile Nat) = inTurn cat a b := by
  rw [run_append cat ha hb, inTurn_eq]
  simp only [sync_volatile, pure_bind]

section Isolated

variable {ε : Type} [Engine ε] [IsolatedEngine ε] (cat : Catalog)

theorem agree_assignKey (p : Panel) (key : String) :
    Agree (ScopeViews.Fault ε) (cat.assignKey p key : StoreM ε (Option Int32))
      (cat.assignKey p key) := by
  have hserves : Serves ((fun a => some a.id) <$> (TableId.panel p .keyMap).allocate key :
      StoreM ε (Option Int32)) _ := ((TableId.panel p .keyMap).serves_allocate key).map _
  rw [TableId.map_onRecords] at hserves
  have h : Serves (cat.assignKey p key : StoreM ε (Option Int32)) _ :=
    Catalog.serves_onTable hserves cat none
  exact .of_serves h h

theorem agree_parts (r : LogRecord) (id : Int32) (left : List Part) :
    Agree (ScopeViews.Fault ε) (parts cat r id left : StoreM ε Unit) (parts cat r id left) := by
  induction left with
  | nil => exact .pure ()
  | cons part left ih =>
      have h := Call.serves (ε := ε) cat (part.call r id)
      exact (Agree.of_serves h h).bind (fun _ => ih)

theorem agree_record (r : LogRecord) :
    Agree (ScopeViews.Fault ε) (record cat r : StoreM ε Bool) (record cat r) := by
  rw [record_eq]
  refine (agree_assignKey cat r.panel r.key).bind (fun id => ?_)
  cases id with
  | none => exact .pure false
  | some id => exact (agree_parts cat r id Part.all).bind (fun _ => .pure true)

theorem agree_storage {α : Type} {m n : StoreM ε α} (h : Agree (ScopeViews.Fault ε) m n) :
    Agree (Raised ε) (m.mapFault .storage) (n.mapFault .storage) :=
  h.mapFault (fun e he => ⟨e, rfl, he⟩)

theorem agree_lines (ls : List Bytes) (number : Nat) :
    Agree (Raised ε) (lines cat number ls : IngestM ε Nat) (lines cat number ls) := by
  induction ls generalizing number with
  | nil => exact .pure 0
  | cons l ls ih =>
      rw [lines]
      refine (Agree.ofExcept _).bind (fun r => ?_)
      cases r with
      | none => exact ih (number + 1)
      | some r =>
          exact (agree_storage (agree_record cat r)).bind
            (fun _ => (ih (number + 1)).bind (fun _ => .pure _))

theorem agree_run_append {a b : Bytes} (ha : Ended a) (hb : ∀ l ∈ Text.lines b, Good l) :
    Agree (Raised ε) (run cat (a ++ b) : IngestM ε Nat) (inTurn cat a b) := by
  have hflush : Agree (Raised ε) (Work.mapFault .storage (pure ()))
      (Work.mapFault .storage (Environment.sync (ε := ε) true)) :=
    agree_storage (.of_serves (serves_of_reports (.pure ())) (serves_sync true))
  rw [run_append cat ha hb, inTurn_eq]
  refine (agree_lines cat _ 1).bind (fun n => ?_)
  -- the flush between the parts has no counterpart in the one run: it is put against no work at all
  rw [← pure_bind () (fun _ => (do
    let m ← lines cat 1 (Text.lines b)
    (Environment.sync true).mapFault .storage
    return n + m : IngestM ε Nat))]
  exact hflush.bind fun _ => (agree_lines cat _ 1).bind fun _ =>
    (agree_storage (.of_serves (serves_sync true) (serves_sync true))).bind fun _ => .pure _

end Isolated

theorem composes (ε : Type) [Engine ε] [IsolatedEngine ε] : Composes ε where
  agree cat _ _ ha hb := agree_run_append cat ha hb
  sum cat a b n m env env₁ env₂ ha hb hs hrun₁ hrun₂ := by
    have hturn : (inTurn cat a b).run env = (.ok (n + m), env₂) := by
      rw [inTurn, Work.run_bind, hrun₁]
      simp only [Work.run_bind, hrun₂, Work.run_pure]
    have hagree := agree_run_append cat ha hb env env ⟨hs, hs, rfl⟩
    rw [hturn] at hagree
    rcases hagree with hfails | ⟨x, hx, -⟩ | ⟨hr, h⟩
    · exact .inl hfails
    · cases hx
    · exact .inr ⟨hr, h.committed⟩

theorem runs_stop_and_compose {δ : Type} [Database δ] [LawfulDatabase δ] :
    (∀ {input : Bytes}, (∃ l ∈ Text.lines input, ∃ f, Spoils l f) → ∃ a f, FirstBad input a f) ∧
    Stops Volatile ∧ Stops (Faulty Volatile) ∧ Stops (DatabaseEngine δ) ∧
    Composes Volatile ∧ Composes (DatabaseEngine δ) ∧
    (∀ cat {a b : Bytes}, Ended a → (∀ l ∈ Text.lines b, Good l) →
      (run cat (a ++ b) : IngestM Volatile Nat) = inTurn cat a b) ∧
    ∀ {ε : Type} [Engine ε] cat {input : Bytes}, carriageReturn ∉ input →
      (run cat (crlf input) : IngestM ε Nat) = run cat input :=
  ⟨exists_firstBad, stops _, stops _, stops _, composes _, composes _, run_append_volatile,
    run_crlf⟩

def hostsStore : Except StorageError Catalog × Environment Volatile :=
  (Catalog.init [.hosts]).run (Environment.volatile {})

def goodPart : Bytes := Text.Utf8.encode "HOSTS\ta\t7\n\n"

def brokenLog : Bytes := goodPart ++ Text.Utf8.encode "HOSTS\t\t9\nHOSTS\tb\n"

theorem runs_stop_and_compose_brokenLog :
    hostsStore.1 = .ok (.listing [.hosts]) ∧
    ((run (.listing [.hosts]) goodPart).run hostsStore.2).1 = .ok 1 ∧
    FirstBad brokenLog goodPart (.record .missingKey) ∧
    ((run (.listing [.hosts]) brokenLog).run hostsStore.2).1 = .error (.badLine 3 .missingKey) ∧
    Engine.committed ((run (.listing [.hosts]) brokenLog).run hostsStore.2).2.engine =
      Engine.committed ((run (.listing [.hosts]) goodPart).run hostsStore.2).2.engine ∧
    ((run (.listing [.hosts]) (goodPart ++ goodPart)).run hostsStore.2).1 = .ok 2 := by
  have hgood : ∀ l ∈ Text.lines goodPart, Good l := by
    have hread : ∀ l ∈ Text.lines goodPart, (checkLine l).toOption.isSome := by decide +kernel
    intro l hl f hf
    have h := hread l hl
    rw [checkLine_eq_error_iff.2 hf] at h
    cases h
  have hrun : ((run (.listing [.hosts]) goodPart).run hostsStore.2).1 = .ok 1 := by decide +kernel
  have hended : Ended goodPart := by decide +kernel
  have hfirst : FirstBad brokenLog goodPart (.record .missingKey) :=
    ⟨List.prefix_append _ _, hended, hgood, _, _, rfl, checkLine_eq_error_iff.1 (by decide +kernel)⟩
  obtain ⟨-, hstops, -, -, -, -, happend, -⟩ := runs_stop_and_compose (δ := TableFile)
  refine ⟨by decide +kernel, hrun, hfirst, hstops.reported _ hfirst _ hrun,
    hstops.content _ hfirst _, ?_⟩
  rw [happend _ hended hgood]
  decide +kernel

end Ingest

end TrafficStore
