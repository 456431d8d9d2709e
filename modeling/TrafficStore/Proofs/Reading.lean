import TrafficStore.Ingest
import TrafficStore.Proofs.Lines

namespace TrafficStore

def Alike {ε ξ α : Type} (m n : Work (Environment ε) ξ α) : Prop :=
  ∀ env journal, ∃ journal', n.run { env with journal } =
    ((m.run env).1, { (m.run env).2 with journal := journal' })

namespace Alike

variable {ε ξ ζ α β : Type}

theorem pure (a : α) : Alike (Pure.pure a : Work (Environment ε) ξ α) (Pure.pure a) :=
  fun _ journal => ⟨journal, rfl⟩

theorem report (x : Event) : Alike (Environment.report x : Work (Environment ε) ξ Unit)
    (Environment.report x) :=
  fun _ _ => ⟨_, rfl⟩

theorem report_pure (x : Event) :
    Alike (Environment.report x : Work (Environment ε) ξ Unit) (Pure.pure ()) :=
  fun _ journal => ⟨journal, rfl⟩

theorem onEngine (m : EngineM ε α) : Alike (Environment.onEngine m) (Environment.onEngine m) :=
  fun _ journal => ⟨journal, rfl⟩

theorem bind {m n : Work (Environment ε) ξ α} {f g : α → Work (Environment ε) ξ β}
    (h : Alike m n) (hf : ∀ a, Alike (f a) (g a)) : Alike (m >>= f) (n >>= g) := by
  intro env journal
  obtain ⟨j, hrun⟩ := h env journal
  rw [Work.run_bind, Work.run_bind, hrun]
  cases hm : m.run env with
  | mk r env' =>
      cases r with
      | error x => exact ⟨j, rfl⟩
      | ok a => exact hf a env' j

theorem map {m n : Work (Environment ε) ξ α} (g : α → β) (h : Alike m n) :
    Alike (g <$> m) (g <$> n) := by
  rw [← bind_pure_comp, ← bind_pure_comp]
  exact h.bind (fun a => .pure (g a))

theorem mapFault {m n : Work (Environment ε) ξ α} (g : ξ → ζ) (h : Alike m n) :
    Alike (m.mapFault g) (n.mapFault g) := by
  intro env journal
  obtain ⟨j, hrun⟩ := h env journal
  exact ⟨j, by rw [Work.run_mapFault, hrun]; rfl⟩

theorem unique {m m' n : Work (Environment ε) ξ α} (h : Alike m n) (h' : Alike m' n)
    (env : Environment ε) : (m.run env).1 = (m'.run env).1 ∧
      (m.run env).2.engine = (m'.run env).2.engine := by
  obtain ⟨j, hrun⟩ := h env env.journal
  obtain ⟨j', hrun'⟩ := h' env env.journal
  obtain ⟨hr, henv⟩ := Prod.mk.inj (hrun.symm.trans hrun')
  exact ⟨hr, (Environment.mk.inj henv).1⟩

section Calls

variable {cat : Catalog} {t : TableId} {missing : α} {op : TableId → StoreM ε α}

theorem sync [Engine ε] (force : Bool) :
    Alike (Environment.sync force : StoreM ε Unit) (Environment.sync force) := by
  refine (onEngine _).bind (fun x => ?_)
  cases x with
  | none => exact .pure ()
  | some x => exact .report x

theorem reportMissing (t : TableId) :
    Alike (Catalog.reportMissing t : StoreM ε Unit) (Catalog.reportMissing t) := by
  cases t with
  | shared t => exact .pure ()
  | panel p m => exact .report _

theorem onTable (h : ∀ t, Alike (op t) (op t)) :
    Alike (cat.onTable t missing op) (cat.onTable t missing op) := by
  rw [Catalog.onTable]
  cases cat.table? t with
  | some t => exact h t
  | none => exact (reportMissing t).bind (fun _ => .pure missing)

theorem allocate [Engine ε] (t : TableId) (name : String) :
    Alike (t.allocate name : StoreM ε Allocation) (t.allocate name) := by
  refine (onEngine _).bind (fun a => ?_)
  cases a.isNew with
  | true => exact (report _).bind (fun _ => .pure a)
  | false => exact .pure a

end Calls

end Alike

def LogRecord.ofLine? (l : List Char) : Option LogRecord :=
  if Text.trim l = [] then none else (LogRecord.parse (.ofList l)).toOption

namespace Ingest

def Readable (l : List Char) : Prop :=
  Text.trim l = [] ∨ (LogRecord.parse (.ofList l)).isOk = true

instance (l : List Char) : Decidable (Readable l) := inferInstanceAs (Decidable (_ ∨ _))

def recordsOf (ps : List Panel) (text : String) : List LogRecord :=
  ((Text.textLines text.toList).filterMap LogRecord.ofLine?).filter (fun r => r.panel ∈ ps)

variable {ε : Type} [Engine ε] {cat : Catalog}

theorem readLine_encode (number : Nat) {l : List Char} (h : Readable l) :
    readLine number (Text.Utf8.encode (.ofList l)) = .ok (LogRecord.ofLine? l) := by
  rw [readLine, Text.Utf8.decode_encode, LogRecord.ofLine?]
  simp only [String.toList_ofList]
  by_cases hblank : Text.trim l = []
  · rw [if_pos hblank, if_pos hblank]
  · rw [if_neg hblank, if_neg hblank]
    have hok := h.resolve_left hblank
    cases hparse : LogRecord.parse (.ofList l) with
    | error x => rw [hparse] at hok; cases hok
    | ok r => rfl

def countAll (cat : Catalog) : List LogRecord → IngestM ε Nat
  | [] => return 0
  | r :: rs => do
      let counted ← (record cat r).mapFault .storage
      let rest ← countAll cat rs
      return if counted then rest + 1 else rest

def count (cat : Catalog) (rs : List LogRecord) : IngestM ε Nat := do
  let n ← countAll cat rs
  (Environment.sync true).mapFault .storage
  return n

theorem lines_eq_countAll (number : Nat) {ls : List (List Char)} (h : ∀ l ∈ ls, Readable l) :
    (lines cat number (ls.map (fun l => Text.Utf8.encode (.ofList l))) : IngestM ε Nat) =
      countAll cat (ls.filterMap LogRecord.ofLine?) := by
  induction ls generalizing number with
  | nil => rfl
  | cons l ls ih =>
      have hrest := ih (number + 1) (fun l hl => h l (List.mem_cons_of_mem _ hl))
      rw [List.map_cons, lines, readLine_encode number (h l List.mem_cons_self)]
      change (Pure.pure _ >>= _) = _
      rw [pure_bind, hrest]
      cases hl : LogRecord.ofLine? l with
      | none => rw [List.filterMap_cons_none hl]
      | some r => rw [List.filterMap_cons_some hl]; rfl

theorem alike_record (cat : Catalog) (r : LogRecord) :
    Alike (record cat r : StoreM ε Bool) (record cat r) := by
  refine (Alike.onTable (fun t => (Alike.allocate t r.key).map _)).bind (fun id => ?_)
  cases id with
  | none => exact .pure false
  | some id =>
      exact (Alike.onTable (fun t => .onEngine _)).bind fun _ =>
        (Alike.onTable (fun t => .onEngine _)).bind fun _ =>
        (Alike.onTable (fun t => .onEngine _)).bind fun _ =>
        (Alike.onTable (fun t => .onEngine _)).bind fun _ =>
        (Alike.onTable (fun t => .onEngine _)).bind fun _ => .pure true

theorem alike_record_ignored {r : LogRecord} (h : r.panel ∉ cat.panels) :
    Alike (record cat r : StoreM ε Bool) (pure false) := by
  rw [record, Catalog.assignKey, Catalog.onPanel, Catalog.onTable, Catalog.table?,
    Catalog.panelTable?, if_neg h]
  exact (Alike.report_pure _).bind (g := fun _ => pure false) (fun _ => .pure false)

theorem alike_countAll (cat : Catalog) (rs : List LogRecord) :
    Alike (countAll cat rs : IngestM ε Nat)
      (countAll cat (rs.filter (fun r => r.panel ∈ cat.panels))) := by
  induction rs with
  | nil => exact .pure 0
  | cons r rs ih =>
      by_cases hr : r.panel ∈ cat.panels
      · rw [List.filter_cons_of_pos (by simpa using hr), countAll, countAll]
        exact ((alike_record cat r).mapFault _).bind fun _ => ih.bind fun _ => .pure _
      · rw [List.filter_cons_of_neg (by simpa using hr), countAll]
        generalize (countAll cat (rs.filter (fun r => r.panel ∈ cat.panels)) : IngestM ε Nat) = m
          at ih ⊢
        -- an ignored record is a step that does nothing, put in on the side where it is left out
        have hskip : ((pure false : StoreM ε Bool).mapFault IngestFault.storage >>=
            fun counted => m >>= fun rest => pure (if counted then rest + 1 else rest)) = m := by
          change (pure false >>= _) = _
          rw [pure_bind]
          exact bind_pure m
        rw [← hskip]
        exact ((alike_record_ignored hr).mapFault _).bind fun _ => ih.bind fun _ => .pure _

theorem alike_run (cat : Catalog) {text : String}
    (h : ∀ l ∈ Text.textLines text.toList, Readable l) :
    Alike (run cat (Text.Utf8.encode text) : IngestM ε Nat)
      (count cat (recordsOf cat.panels text)) := by
  rw [run, Text.lines_encode, lines_eq_countAll 1 h]
  exact (alike_countAll cat _).bind fun _ => ((Alike.sync true).mapFault _).bind fun _ => .pure _

end Ingest

end TrafficStore
