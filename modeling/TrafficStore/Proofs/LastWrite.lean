import Mathlib.Data.List.Dedup
import TrafficStore.Proofs.Decoding
import TrafficStore.Proofs.Frame
import TrafficStore.Proofs.Room
import TrafficStore.Proofs.Engine.Durable
import TrafficStore.Proofs.Engine.Volatile

namespace TrafficStore

open ScopeViews

structure Accessed where
  table : TableId
  access : Access
  answer : Except StorageError Reply

namespace Access

def record? : Access → Reply → Option (Bytes × Bytes)
  | putInt k n, _ => some (k.bytes, Format.int.encode n)
  | putWord k n, _ => some (k.bytes, Format.word.encode n)
  | putText k s, _ => some (k.bytes, Format.text.encode s)
  | addInt k _, .int sum => some (k.bytes, Format.int.encode sum)
  | addWord k _, .word sum => some (k.bytes, Format.word.encode sum)
  | raise k candidate, .flag true => some (k.bytes, Format.word.encode candidate)
  | allocate name, .allocation (.inserted id) =>
      some ((Key.name name).bytes, Format.int.encode id)
  | _, _ => none

def runs {ε : Type} [Engine ε] :
    List (TableId × Access) → Environment ε → List Accessed × Environment ε
  | [], env => ([], env)
  | (t, a) :: as, env =>
      let o := (a.run t).run env
      let os := runs as o.2
      (⟨t, a, o.1⟩ :: os.1, os.2)

def written (table : Table) : Option (Bytes × Bytes) → Table
  | some e => table.insert e.1 e.2
  | none => table

theorem find?_written (table : Table) (e? : Option (Bytes × Bytes)) (key : Bytes) :
    (written table e?).find? key =
      (e?.bind (fun e => if e.1 = key then some e.2 else none)).or (table.find? key) := by
  cases e? with
  | none => rfl
  | some e =>
      rw [written, SortedMap.find?_insert, Option.bind_some]
      by_cases hk : e.1 = key
      · rw [if_pos hk, if_pos hk.symm]
        rfl
      · rw [if_neg hk, if_neg (fun he => hk he.symm)]
        rfl

theorem rewrite_ok {t : TableId} {a : Access} {table table' : Table} {r : Reply}
    (h : a.rewrite t table = .ok (r, table')) : table' = written table (a.record? r) := by
  have hlook : a.key? = none → table' = table := by
    intro hkey
    rcases a.touches_rewrite t table r table' h with he | ⟨k, v, hk, -⟩
    · exact he
    · rw [hkey] at hk
      cases hk
  cases a with
  | putInt | putWord | putText => cases h; rfl
  | addInt | addWord =>
      obtain ⟨sum, hsum, rfl⟩ := Rewrite.map_ok h
      exact Rewrite.accumulate_ok hsum
  | raise =>
      obtain ⟨raised, hraised, rfl⟩ := Rewrite.map_ok h
      rw [Rewrite.raise_ok hraised]
      cases raised <;> rfl
  | allocate name =>
      obtain ⟨a, ha, rfl⟩ := Rewrite.map_ok h
      rw [Rewrite.allocate_ok ha]
      cases a <;> rfl
  | findInt | findText | intOrZero | wordOrZero | cardinality | dump => exact hlook rfl

end Access

namespace Accessed

def record? (h : Accessed) (t : TableId) : Option (Bytes × Bytes) :=
  match h.answer with
  | .ok r => if h.table = t then h.access.record? r else none
  | .error _ => none

def value? (h : Accessed) (t : TableId) (key : Bytes) : Option Bytes :=
  (h.record? t).bind (fun e => if e.1 = key then some e.2 else none)

def lastWritten (hs : List Accessed) (t : TableId) (key : Bytes) : Option Bytes :=
  hs.reverse.findSome? (fun h => h.value? t key)

def writtenKeys (hs : List Accessed) (t : TableId) : List Bytes :=
  (hs.filterMap (fun h => h.record? t)).map Prod.fst

theorem lastWritten_cons (h : Accessed) (hs : List Accessed) (t : TableId) (key : Bytes) :
    lastWritten (h :: hs) t key = (lastWritten hs t key).or (h.value? t key) := by
  rw [lastWritten, List.reverse_cons, List.findSome?_append, List.findSome?_singleton]
  rfl

theorem isSome_value? {h : Accessed} {t : TableId} {key : Bytes} :
    (h.value? t key).isSome ↔ ∃ e, h.record? t = some e ∧ e.1 = key := by
  rw [value?]
  cases h.record? t with
  | none => simp
  | some e => by_cases hk : e.1 = key <;> simp [hk]

theorem isSome_lastWritten {hs : List Accessed} {t : TableId} {key : Bytes} :
    (lastWritten hs t key).isSome ↔ key ∈ writtenKeys hs t := by
  rw [lastWritten, List.findSome?_isSome_iff, writtenKeys, List.mem_map]
  simp only [List.mem_reverse, isSome_value?, List.mem_filterMap]
  constructor
  · rintro ⟨h, hh, e, he, hk⟩
    exact ⟨e, ⟨h, hh, he⟩, hk⟩
  · rintro ⟨e, ⟨h, hh, he⟩, hk⟩
    exact ⟨h, hh, e, he, hk⟩

variable {ε : Type} [Engine ε] [IsolatedEngine ε] {env : Environment ε} {t : TableId}
  {table : Table}

theorem find?_run (u : TableId) (a : Access) (hs : Sound env.engine)
    (htable : (Engine.committed env.engine).find? t.name = some table) :
    ∃ table', (Engine.committed ((a.run u).run env).2.engine).find? t.name = some table' ∧
      ∀ key, table'.find? key =
        ((Accessed.mk u a ((a.run u).run env).1).value? t key).or (table.find? key) := by
  cases hrun : (a.run u).run env with
  | mk r env' =>
      cases r with
      | error x =>
          obtain ⟨-, hc, -⟩ := (a.serves u).error hs hrun
          exact ⟨table, by rw [hc]; exact htable, fun _ => rfl⟩
      | ok r =>
          obtain ⟨-, -, hr⟩ := (a.serves u).ok hs hrun
          obtain ⟨before, after, hbefore, hw, hc⟩ := TableId.onRecords_ok hr
          rw [hc, SortedMap.find?_insert]
          by_cases hu : u = t
          · subst hu
            rw [htable] at hbefore
            cases hbefore
            refine ⟨after, if_pos rfl, fun key => ?_⟩
            rw [Access.rewrite_ok hw, Access.find?_written, value?, record?]
            simp only [if_true]
          · rw [if_neg (fun he => hu (TableId.name_injective he).symm)]
            refine ⟨table, htable, fun key => ?_⟩
            rw [value?, record?]
            simp only [if_neg hu]
            rfl

theorem find?_runs (as : List (TableId × Access)) : ∀ {env : Environment ε} {table : Table},
    Sound env.engine → (Engine.committed env.engine).find? t.name = some table →
    Sound (Access.runs as env).2.engine ∧
      ∃ table', (Engine.committed (Access.runs as env).2.engine).find? t.name = some table' ∧
        ∀ key, table'.find? key =
          (lastWritten (Access.runs as env).1 t key).or (table.find? key) := by
  induction as with
  | nil => exact fun {env table} hs htable => ⟨hs, table, htable, fun _ => rfl⟩
  | cons a as ih =>
      intro env table hs htable
      obtain ⟨table₁, htable₁, hfind₁⟩ := find?_run a.1 a.2 hs htable
      obtain ⟨hs₂, table₂, htable₂, hfind₂⟩ := ih ((Leaves.access a.1 a.2).sound env hs) htable₁
      refine ⟨hs₂, table₂, htable₂, fun key => ?_⟩
      rw [hfind₂, hfind₁]
      change _ = (lastWritten (_ :: _) t key).or _
      rw [lastWritten_cons, Option.or_assoc]

theorem size_eq {hs : List Accessed} (h : ∀ key, table.find? key = lastWritten hs t key) :
    table.size = (writtenKeys hs t).dedup.length := by
  have hperm : table.keys.Perm (writtenKeys hs t).dedup := by
    rw [List.perm_ext_iff_of_nodup table.nodup_keys (List.nodup_dedup _)]
    intro key
    rw [SortedMap.mem_keys_iff, SortedMap.contains, h, List.mem_dedup]
    exact isSome_lastWritten
  rw [← hperm.length_eq, SortedMap.keys, List.length_map]
  rfl

end Accessed

namespace Access

structure View where
  key : Key
  kind : CellKind
  answer : Option kind.Carrier → Reply

def view? : Access → Option View
  | findInt k => some ⟨k, .int, .maybeInt⟩
  | findText k => some ⟨k, .text, .maybeText⟩
  | intOrZero k => some ⟨k, .int, fun n => .int (n.getD 0)⟩
  | wordOrZero k => some ⟨k, .word, fun n => .word (n.getD 0)⟩
  | addInt k delta => some ⟨k, .int, fun n => .int (TrafficStore.addInt (n.getD 0) delta)⟩
  | addWord k delta => some ⟨k, .word, fun n => .word (TrafficStore.addWord (n.getD 0) delta)⟩
  | raise k candidate => some ⟨k, .word, fun n => .flag (n.getD 0 < candidate)⟩
  | cardinality | putInt .. | putWord .. | putText .. | allocate .. | dump .. => none

inductive View.Tells (v : View) : Option Bytes → Except StorageError Reply → Prop
  | absent : v.Tells none (.ok (v.answer none))
  | held {bs : Bytes} {a : v.kind.Carrier} : v.kind.Reads bs (.ok a) →
      v.Tells (some bs) (.ok (v.answer (some a)))
  | corrupt {bs : Bytes} {f : FormatFault} : v.kind.Reads bs (.error f) →
      v.Tells (some bs) (.error (.corrupt f))

theorem View.tells_read (v : View) (raw : Option Bytes) :
    v.Tells raw ((v.kind.format.read raw).map v.answer) := by
  cases raw with
  | none => exact .absent
  | some bs =>
      rw [Format.read]
      cases hd : v.kind.format.decode bs with
      | ok a => exact .held (CellKind.reads_iff.2 hd)
      | error f => exact .corrupt (CellKind.reads_iff.2 hd)

theorem answer_rewrite {t : TableId} {a : Access} {v : View} (h : a.view? = some v)
    (table : Table) : (a.rewrite t).answer table =
      (v.kind.format.read (table.find? v.key.bytes)).map v.answer := by
  cases a with
  | findInt | findText | intOrZero | wordOrZero =>
      cases h
      rw [rewrite, Rewrite.answer_map, Rewrite.answer_find]
      rfl
  | addInt | addWord =>
      cases h
      rw [rewrite, Rewrite.answer_map, Rewrite.answer_accumulate]
      exact Functor.map_map (f := Except StorageError) _ _ _
  | raise =>
      cases h
      rw [rewrite, Rewrite.answer_map, Rewrite.answer_raise]
      exact Functor.map_map (f := Except StorageError) _ _ _
  | cardinality | putInt | putWord | putText | allocate | dump => cases h

def overwrites : Access → Bool
  | putInt .. | putWord .. | putText .. => true
  | _ => false

theorem answer_put {t : TableId} {a : Access} (h : a.overwrites = true) (table : Table) :
    (a.rewrite t).answer table = .ok .done := by
  cases a <;> cases h <;> rfl

theorem answer_run {ε : Type} [Engine ε] [IsolatedEngine ε] {env : Environment ε} {t : TableId}
    {table : Table} (a : Access) (hs : Sound env.engine)
    (htable : (Engine.committed env.engine).find? t.name = some table) :
    Faults ε ((a.run t).run env).1 ∨ ((a.run t).run env).1 = (a.rewrite t).answer table := by
  obtain ⟨r, env', hrun, -, -, hr⟩ := a.serves t env hs
  rw [hrun]
  refine hr.imp And.left (fun hsettle => ?_)
  have hanswer := congrArg Prod.fst hsettle
  rw [Change.settle, TableId.onRecords_some htable] at hanswer
  rw [Rewrite.answer, ← hanswer]
  cases a.rewrite t table <;> rfl

end Access

structure ReadOverWrite {ε : Type} [Engine ε] [ScopeViews ε] (t : TableId) (hs : List Accessed)
    (env : Environment ε) : Prop where
  views : ∀ {a : Access} {v : Access.View}, a.view? = some v →
    Faults ε ((a.run t).run env).1 ∨
      v.Tells (Accessed.lastWritten hs t v.key.bytes) ((a.run t).run env).1
  count : Faults ε ((Access.cardinality.run t).run env).1 ∨
    ((Access.cardinality.run t).run env).1 =
      .ok (.size (Accessed.writtenKeys hs t).dedup.length)
  puts : ∀ {a : Access}, a.overwrites = true →
    Faults ε ((a.run t).run env).1 ∨ ((a.run t).run env).1 = .ok .done
  refused : ∀ {a : Access} {x : StorageError}, ((a.run t).run env).1 = .error x →
    Engine.committed ((a.run t).run env).2.engine = Engine.committed env.engine

theorem readOverWrite {ε : Type} [Engine ε] [IsolatedEngine ε] {t : TableId}
    (as : List (TableId × Access)) {env : Environment ε} (hs : Sound env.engine)
    (hempty : (Engine.committed env.engine).find? t.name = some .empty) :
    ReadOverWrite t (Access.runs as env).1 (Access.runs as env).2 := by
  obtain ⟨hs', table, htable, hfind⟩ := Accessed.find?_runs as hs hempty
  have hlast : ∀ key, table.find? key = Accessed.lastWritten (Access.runs as env).1 t key := by
    intro key
    rw [hfind, SortedMap.find?_empty, Option.or_none]
  refine ⟨fun {a v} hv => ?_, ?_, fun {a} ha => ?_, fun {a x} hx => ?_⟩
  · refine (Access.answer_run a hs' htable).imp_right (fun h => ?_)
    rw [h, Access.answer_rewrite hv, ← hlast]
    exact v.tells_read _
  · refine (Access.answer_run .cardinality hs' htable).imp_right (fun h => ?_)
    rw [h, ← Accessed.size_eq hlast]
    rfl
  · refine (Access.answer_run a hs' htable).imp_right (fun h => ?_)
    rw [h, Access.answer_put ha]
  · exact ((a.serves t).error hs' (Prod.ext hx rfl)).2.1

theorem accesses_read_writes {δ : Type} [Database δ] [LawfulDatabase δ] :
    (∀ (t : TableId) as (env : Environment Volatile),
      (Engine.committed env.engine).find? t.name = some .empty →
      ReadOverWrite t (Access.runs as env).1 (Access.runs as env).2) ∧
    (∀ (t : TableId) as (env : Environment (DatabaseEngine δ)), Sound env.engine →
      (Engine.committed env.engine).find? t.name = some .empty →
      ReadOverWrite t (Access.runs as env).1 (Access.runs as env).2) ∧
    ∀ (t : TableId) (a : Access) (env : Environment Volatile), a.writes = false →
      ¬ Faults Volatile ((a.run t).run env).1 := by
  refine ⟨fun t as env hempty => readOverWrite as trivial hempty,
    fun t as env hs hempty => readOverWrite as hs hempty, ?_⟩
  rintro t a env ha ⟨x, hx, hfull⟩
  exact Bool.noConfusion ((Access.roomless_run ha t env x hx).symm.trans hfull)

def hostnamesMade : Environment Volatile where
  engine := { maxSize := 64, content := SortedMap.empty.insert "db_hostnames" .empty }
  settings := {}

def oneKeyTwoLayouts : List (TableId × Access) :=
  [(.shared .hostnames, .putInt (.id 0x64636261) 5), (.shared .hostnames, .addInt (.name "abcd") 2),
    (.shared .agentKeys, .putInt (.id 0) 1), (.shared .hostnames, .addWord (.name "abcd") 1)]

theorem accesses_read_writes_oneKeyTwoLayouts :
    (Access.runs oneKeyTwoLayouts hostnamesMade).1.map Accessed.answer =
      [.ok .done, .ok (.int 7), .error (.unknownTable "db_agent_keys"),
        .error (.corrupt (.width 8 4))] ∧
    Accessed.lastWritten (Access.runs oneKeyTwoLayouts hostnamesMade).1 (.shared .hostnames)
      (Key.name "abcd").bytes = some [7, 0, 0, 0] ∧
    Access.View.Tells ⟨.name "abcd", .int, .maybeInt⟩ (some [7, 0, 0, 0])
      (((Access.findInt (.name "abcd")).run (.shared .hostnames)).run
        (Access.runs oneKeyTwoLayouts hostnamesMade).2).1 ∧
    (((Access.findInt (.name "abcd")).run (.shared .hostnames)).run
      (Access.runs oneKeyTwoLayouts hostnamesMade).2).1 = .ok (.maybeInt (some 7)) ∧
    ((Access.cardinality.run (.shared .hostnames)).run
      (Access.runs oneKeyTwoLayouts hostnamesMade).2).1 = .ok (.size 1) := by
  have hlast : Accessed.lastWritten (Access.runs oneKeyTwoLayouts hostnamesMade).1
      (.shared .hostnames) (Key.name "abcd").bytes = some [7, 0, 0, 0] := by decide
  obtain ⟨hvolatile, -, hlooks⟩ := accesses_read_writes (δ := TableFile)
  have h := hvolatile (.shared .hostnames) oneKeyTwoLayouts hostnamesMade rfl
  have hviews := (h.views (a := .findInt (.name "abcd")) rfl).resolve_left (hlooks _ _ _ rfl)
  rw [hlast] at hviews
  exact ⟨by decide, hlast, hviews, by decide, h.count.resolve_left (hlooks _ _ _ rfl)⟩

end TrafficStore
