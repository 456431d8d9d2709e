import TrafficStore.Proofs.Decoding
import TrafficStore.Proofs.Frame
import TrafficStore.Proofs.Room
import TrafficStore.Proofs.Engine.Durable
import TrafficStore.Proofs.Engine.Volatile

namespace TrafficStore

open ScopeViews

def Value.Ahead : Value → Value → Prop
  | .int m, .int n => n < m
  | .text s, .text t => Text.Utf8.encode s < Text.Utf8.encode t
  | _, _ => False

namespace Value

theorem Ahead.irrefl : ∀ {v : Value}, ¬ v.Ahead v
  | .int _ => Int32.lt_irrefl
  | .text _ => List.lt_irrefl _

theorem Ahead.asymm : ∀ {v w : Value}, v.Ahead w → ¬ w.Ahead v
  | .int _, .int _, h, h' => Int32.lt_irrefl (Int32.lt_trans h h')
  | .text _, .text _, h, h' => List.lt_irrefl _ (List.lt_trans h h')

theorem ahead_of_precedes : ∀ {o : SortOrder} {v w : Value}, o.precedes v w = true → v.Ahead w
  | .numericDescending, .int m, .int n, h => of_decide_eq_true (p := n < m) h
  | .lexicographicAscending, .text s, .text t, h =>
      of_decide_eq_true (p := Text.Utf8.encode s < Text.Utf8.encode t) h

theorem eq_of_neither : ∀ {o : SortOrder} {v w : Value}, o.Fits v → o.Fits w →
    o.precedes v w = false → o.precedes w v = false → v = w
  | .numericDescending, .int _, .int _, _, _, h, h' =>
      congrArg Value.int (Int32.le_antisymm (Int32.not_lt.1 (of_decide_eq_false h))
        (Int32.not_lt.1 (of_decide_eq_false h')))
  | .lexicographicAscending, .text _, .text _, _, _, h, h' =>
      congrArg Value.text (Text.Utf8.encode_injective (Ordered.eq_of_neither (κ := Bytes) h h'))

end Value

namespace Item

def Before (x y : Item) : Prop :=
  x.value.Ahead y.value ∨
    x.value = y.value ∧ Format.int.encode x.key < Format.int.encode y.key

theorem Before.asymm {x y : Item} (h : x.Before y) : ¬ y.Before x := by
  rintro (h' | ⟨he', h'⟩)
  · rcases h with h | ⟨he, -⟩
    · exact h.asymm h'
    · rw [he] at h'
      exact h'.irrefl
  · rcases h with h | ⟨-, h⟩
    · rw [he'] at h
      exact h.irrefl
    · exact List.lt_irrefl _ (List.lt_trans h h')

theorem before_of_inOrder {o : SortOrder} {x y : Item} (hx : o.Fits x.value) (hy : o.Fits y.value)
    (hne : x.key ≠ y.key) (h : o.InOrder x y) : x.Before y := by
  rcases h with h | ⟨hyx, hk⟩
  · exact .inl (Value.ahead_of_precedes h)
  · cases hxy : o.precedes x.value y.value with
    | true => exact .inl (Value.ahead_of_precedes hxy)
    | false =>
        refine .inr ⟨Value.eq_of_neither hx hy hxy hyx, ?_⟩
        cases hk' : x.keyPrecedes y with
        | true => exact of_decide_eq_true hk'
        | false => exact absurd (Format.int_encode_injective (Ordered.eq_of_neither hk' hk)) hne

end Item

namespace ValueKind

theorem key_of_reads {kind : ValueKind} {r : Bytes × Bytes} {x : Item}
    (h : kind.Reads r (.ok x)) : r.1 = Format.int.encode x.key := by
  cases h with
  | @item key a hk ha =>
      rw [kind.item_key]
      exact (Format.int_encode_of_decode (CellKind.reads_iff.1 hk)).symm

theorem ok_or_error {kind : ValueKind} {r : Bytes × Bytes} {x : Item} {f : FormatFault}
    (h : kind.Reads r (.ok x)) : ¬ kind.Reads r (.error f) := by
  intro h'
  rw [reads_iff] at h h'
  rw [h] at h'
  cases h'

end ValueKind

namespace Panel

theorem fits_dumpPolicy (p : Panel) (e : Int32 × p.dumpPolicy.kind.cell.Carrier) :
    p.dumpPolicy.order.Fits (p.dumpPolicy.kind.item e).value := by
  cases p <;> exact trivial

theorem fits_of_reads {p : Panel} {r : Bytes × Bytes} {x : Item}
    (h : p.dumpPolicy.kind.Reads r (.ok x)) : p.dumpPolicy.order.Fits x.value := by
  cases h with
  | item hk ha => exact p.fits_dumpPolicy _

end Panel

namespace Dump

structure Covers (p : Panel) (table : Table) (d : Dump) : Prop where
  panel : d.panel = p
  kind : d.kind = p.dumpPolicy.kind
  items : ∃ read, List.Forall₂ (fun r x => p.dumpPolicy.kind.Reads r (.ok x)) table.entries read ∧
    d.items.Perm read
  ordered : d.items.Pairwise Item.Before

def FirstFlaw (p : Panel) (table : Table) (f : FormatFault) : Prop :=
  ∃ r ∈ table.entries, p.dumpPolicy.kind.Reads r (.error f) ∧
    ∀ s ∈ table.entries, s.1 < r.1 → ∃ x, p.dumpPolicy.kind.Reads s (.ok x)

inductive Tells (p : Panel) (table : Table) : Except StorageError (Option Dump) → Prop
  | whole {d : Dump} : d.Covers p table → Tells p table (.ok (some d))
  | flawed {f : FormatFault} : FirstFlaw p table f → Tells p table (.error (.corrupt f))

variable {p : Panel} {table : Table}

namespace Covers

variable {d d' : Dump}

theorem reads (h : d.Covers p table) :
    ∀ r ∈ table.entries, ∃ x, p.dumpPolicy.kind.Reads r (.ok x) := by
  obtain ⟨read, hread, -⟩ := h.items
  exact ((List.forall₂_and_left table.entries read).1
    (hread.imp (fun _ x hr => ⟨⟨x, hr⟩, hr⟩))).1

theorem length_eq (h : d.Covers p table) : d.items.length = table.size := by
  obtain ⟨read, hread, hperm⟩ := h.items
  rw [hperm.length_eq, ← hread.length_eq]
  rfl

theorem unique (h : d.Covers p table) (h' : d'.Covers p table) : d = d' := by
  obtain ⟨read, hread, hperm⟩ := h.items
  obtain ⟨read', hread', hperm'⟩ := h'.items
  rw [← decodeItems_eq_ok_iff] at hread hread'
  rw [hread] at hread'
  cases hread'
  have hitems : d.items = d'.items :=
    List.Perm.eq_of_pairwise (fun _ _ _ _ hxy hyx => absurd hyx hxy.asymm) h.ordered h'.ordered
      (hperm.trans hperm'.symm)
  obtain ⟨panel, kind, items⟩ := d
  obtain ⟨panel', kind', items'⟩ := d'
  obtain rfl : panel = panel' := h.panel.trans h'.panel.symm
  obtain rfl : kind = kind' := h.kind.trans h'.kind.symm
  obtain rfl : items = items' := hitems
  rfl

end Covers

theorem FirstFlaw.unique {f f' : FormatFault} (h : FirstFlaw p table f)
    (h' : FirstFlaw p table f') : f = f' := by
  obtain ⟨r, hr, hf, hfirst⟩ := h
  obtain ⟨r', hr', hf', hfirst'⟩ := h'
  have hkey : r.1 = r'.1 := by
    refine Ordered.eq_of_neither (decide_eq_false fun hlt => ?_) (decide_eq_false fun hlt => ?_)
    · obtain ⟨x, hx⟩ := hfirst' r hr hlt
      exact ValueKind.ok_or_error hx hf
    · obtain ⟨x, hx⟩ := hfirst r' hr' hlt
      exact ValueKind.ok_or_error hx hf'
  have hvalue : table.find? r.1 = some r'.2 := by
    rw [hkey]
    exact SortedMap.find?_eq_some_iff.2 hr'
  rw [SortedMap.find?_eq_some_iff.2 hr] at hvalue
  obtain rfl : r = r' := Prod.ext hkey (Option.some.inj hvalue)
  rw [ValueKind.reads_iff] at hf hf'
  rw [hf] at hf'
  exact Except.error.inj hf'

theorem keyPrecedes_of_reads {kind : ValueKind} {rs : List (Bytes × Bytes)} {xs : List Item}
    (h : List.Forall₂ (fun r x => kind.Reads r (.ok x)) rs xs)
    (hrs : rs.Pairwise (fun r s => Ordered.precedes r.1 s.1 = true)) :
    xs.Pairwise (fun x y => x.keyPrecedes y = true) := by
  have hkeys : rs.map Prod.fst = xs.map (fun x => Format.int.encode x.key) := by
    rw [← List.forall₂_eq_eq_eq, List.forall₂_map_left_iff, List.forall₂_map_right_iff]
    exact h.imp (fun _ _ hr => ValueKind.key_of_reads hr)
  have hsorted : (rs.map Prod.fst).Pairwise (fun a b => Ordered.precedes a b = true) :=
    List.pairwise_map.2 hrs
  rw [hkeys] at hsorted
  exact List.pairwise_map.1 hsorted

theorem covers_sort {read : List Item}
    (h : List.Forall₂ (fun r x => p.dumpPolicy.kind.Reads r (.ok x)) table.entries read) :
    ((⟨p, p.dumpPolicy.kind, read⟩ : Dump).sort p.dumpPolicy.order).Covers p table := by
  have hperm : (sortItems p.dumpPolicy.order read).Perm read := sortItems_perm _ read
  have hfits : ∀ x ∈ read, p.dumpPolicy.order.Fits x.value :=
    ((List.forall₂_and_left read table.entries).1
      (h.flip.imp (fun _ _ hr => ⟨Panel.fits_of_reads hr, hr⟩))).1
  have hkeys := keyPrecedes_of_reads h table.sorted
  have hne : read.Pairwise (fun x y => x.key ≠ y.key) := by
    refine hkeys.imp (fun {x y} hxy he => ?_)
    rw [Item.keyPrecedes, he, Ordered.irrefl] at hxy
    cases hxy
  refine ⟨rfl, rfl, ⟨read, h, hperm⟩, ?_⟩
  have hsorted := pairwise_sortItems hfits hkeys
  have hsortedNe := (hperm.pairwise_iff (fun hxy => Ne.symm hxy)).2 hne
  refine (hsorted.and hsortedNe).imp_of_mem (fun {x y} hx hy hxy => ?_)
  exact Item.before_of_inOrder (hfits x (hperm.mem_iff.1 hx)) (hfits y (hperm.mem_iff.1 hy)) hxy.2
    hxy.1

example : sortItems .numericDescending [⟨256, .int 5⟩, ⟨1, .int 5⟩, ⟨-1, .int 7⟩] =
    [⟨-1, .int 7⟩, ⟨256, .int 5⟩, ⟨1, .int 5⟩] := by decide

theorem tells_entries (p : Panel) (table : Table) :
    Tells p table (((decodeItems p.dumpPolicy.kind table.entries).mapError .corrupt).map
      (fun items => some ((⟨p, p.dumpPolicy.kind, items⟩ : Dump).sort p.dumpPolicy.order))) := by
  rcases decodeItems_cases p.dumpPolicy.kind table.entries with
    ⟨read, hread⟩ | ⟨before, r, later, f, hentries, hbefore, hr⟩
  · rw [hread]
    exact .whole (covers_sort (decodeItems_eq_ok_iff.1 hread))
  · have hsorted := table.sorted
    rw [hentries, List.pairwise_append, List.pairwise_cons] at hsorted
    rw [hentries, decodeItems_eq_error hr later hbefore]
    refine .flawed ⟨r, by simp [hentries], hr, fun s hs hlt => ?_⟩
    rw [hentries, List.mem_append, List.mem_cons] at hs
    rcases hs with hs | rfl | hs
    · exact hbefore s hs
    · exact absurd hlt (List.lt_irrefl s.1)
    · have hlater : r.1 < s.1 := of_decide_eq_true (hsorted.2.1.1 s hs)
      exact absurd (List.lt_trans hlt hlater) (List.lt_irrefl s.1)

namespace Tells

variable {r r' : Except StorageError (Option Dump)}

theorem exists_whole (h : Tells p table r)
    (hall : ∀ s ∈ table.entries, ∃ x, p.dumpPolicy.kind.Reads s (.ok x)) :
    ∃ d, r = .ok (some d) ∧ d.Covers p table := by
  cases h with
  | whole hd => exact ⟨_, rfl, hd⟩
  | flawed hf =>
      obtain ⟨s, hs, hflaw, -⟩ := hf
      obtain ⟨x, hx⟩ := hall s hs
      exact absurd hflaw (ValueKind.ok_or_error hx)

theorem exists_flawed (h : Tells p table r) {s : Bytes × Bytes} {f : FormatFault}
    (hs : s ∈ table.entries) (hf : p.dumpPolicy.kind.Reads s (.error f)) :
    ∃ f', r = .error (.corrupt f') ∧ FirstFlaw p table f' := by
  cases h with
  | flawed hf' => exact ⟨_, rfl, hf'⟩
  | whole hd =>
      obtain ⟨x, hx⟩ := hd.reads s hs
      exact absurd hf (ValueKind.ok_or_error hx)

theorem unique (h : Tells p table r) (h' : Tells p table r') : r = r' := by
  cases h with
  | @whole d hd =>
      obtain ⟨d', rfl, hd'⟩ := h'.exists_whole hd.reads
      rw [hd.unique hd']
  | @flawed f hf =>
      obtain ⟨s, hs, hflaw, -⟩ := id hf
      obtain ⟨f', rfl, hf'⟩ := h'.exists_flawed hs hflaw
      rw [hf.unique hf']

end Tells

end Dump

namespace Catalog

variable {ε : Type} [Engine ε]

theorem run_dump_unlisted {cat : Catalog} {p : Panel} (hp : p ∉ cat.panels)
    (env : Environment ε) : (cat.dump p).run env =
      (.ok none, { env with journal := env.journal.push (.dumpSkipped p) }) := by
  rw [dump, panelTable?, if_neg hp]
  rfl

variable [IsolatedEngine ε] {cat : Catalog} {p : Panel} {env : Environment ε} {table : Table}

theorem tells_dump (hs : Sound env.engine) (hp : p ∈ cat.panels)
    (htable : (Engine.committed env.engine).find? (TableId.panel p p.dumpPolicy.metric).name =
      some table) :
    Faults ε ((cat.dump p).run env).1 ∨ Dump.Tells p table ((cat.dump p).run env).1 := by
  obtain ⟨r, env', hrun, -, -, hr⟩ := cat.serves_dump p env hs
  rw [hrun]
  rcases hr with ⟨hfaults, -⟩ | hr
  · exact .inl hfaults
  · refine .inr ?_
    have hsettle := congrArg Prod.fst hr
    have htells := Dump.tells_entries p table
    rw [Change.settle, onRecords_mem (Catalog.panel_mem_tables.2 hp), TableId.onRecords_some htable,
      Rewrite.map, Rewrite.dump] at hsettle
    cases hread : (Dump.decodeItems p.dumpPolicy.kind table.entries).mapError
        StorageError.corrupt with
    | error | ok =>
        rw [hread] at hsettle htells
        rw [← hsettle]
        exact htells

theorem dump_still (hs : Sound env.engine) :
    Engine.committed ((cat.dump p).run env).2.engine = Engine.committed env.engine := by
  have h := (Leaves.call cat (.dump p)).idle env hs (Call.idle_of_not_writes rfl _)
  rw [Call.run, Work.run_map] at h
  cases hrun : (cat.dump p).run env with
  | mk r env' =>
      rw [hrun] at h
      cases r <;> exact h

end Catalog

structure Dumping (ε : Type) [Engine ε] [ScopeViews ε] : Prop where
  whole : ∀ {cat : Catalog} {p : Panel} {env : Environment ε} {table : Table},
    Sound env.engine → p ∈ cat.panels →
    (Engine.committed env.engine).find? (TableId.panel p p.dumpPolicy.metric).name = some table →
    (∀ r ∈ table.entries, ∃ x, p.dumpPolicy.kind.Reads r (.ok x)) →
    Faults ε ((cat.dump p).run env).1 ∨ ∃ d, ((cat.dump p).run env).1 = .ok (some d) ∧
      d.Covers p table ∧ d.items.length = table.size
  flawed : ∀ {cat : Catalog} {p : Panel} {env : Environment ε} {table : Table}
    {r : Bytes × Bytes} {f : FormatFault}, Sound env.engine → p ∈ cat.panels →
    (Engine.committed env.engine).find? (TableId.panel p p.dumpPolicy.metric).name = some table →
    r ∈ table.entries → p.dumpPolicy.kind.Reads r (.error f) →
    Faults ε ((cat.dump p).run env).1 ∨ ∃ f', ((cat.dump p).run env).1 = .error (.corrupt f') ∧
      Dump.FirstFlaw p table f'
  still : ∀ (cat : Catalog) (p : Panel) {env : Environment ε}, Sound env.engine →
    Engine.committed ((cat.dump p).run env).2.engine = Engine.committed env.engine

def DumpAlike (ε ε' : Type) [Engine ε] [ScopeViews ε] [Engine ε'] [ScopeViews ε'] : Prop :=
  ∀ {cat cat' : Catalog} {p : Panel} {env : Environment ε} {env' : Environment ε'}
    {table table' : Table}, Sound env.engine → Sound env'.engine → p ∈ cat.panels →
    p ∈ cat'.panels →
    (Engine.committed env.engine).find? (TableId.panel p p.dumpPolicy.metric).name = some table →
    (Engine.committed env'.engine).find? (TableId.panel p p.dumpPolicy.metric).name = some table' →
    (∀ key, table.find? key = table'.find? key) →
    Faults ε ((cat.dump p).run env).1 ∨ Faults ε' ((cat'.dump p).run env').1 ∨
      ((cat.dump p).run env).1 = ((cat'.dump p).run env').1

theorem dumping (ε : Type) [Engine ε] [IsolatedEngine ε] : Dumping ε where
  whole hs hp htable hall := by
    refine (Catalog.tells_dump hs hp htable).imp_right (fun h => ?_)
    obtain ⟨d, hd, hcovers⟩ := h.exists_whole hall
    exact ⟨d, hd, hcovers, hcovers.length_eq⟩
  flawed hs hp htable hr hf :=
    (Catalog.tells_dump hs hp htable).imp_right (fun h => h.exists_flawed hr hf)
  still _ _ _ hs := Catalog.dump_still hs

theorem dumpAlike (ε ε' : Type) [Engine ε] [IsolatedEngine ε] [Engine ε'] [IsolatedEngine ε'] :
    DumpAlike ε ε' := by
  intro cat cat' p env env' table table' hs hs' hp hp' htable htable' hsame
  obtain rfl : table = table' := SortedMap.ext_find? hsame
  rcases Catalog.tells_dump hs hp htable with hfaults | h
  · exact .inl hfaults
  · refine .inr ?_
    exact (Catalog.tells_dump hs' hp' htable').imp_right (fun h' => h.unique h')

theorem dumps_sorted {δ : Type} [Database δ] [LawfulDatabase δ] :
    Dumping Volatile ∧ Dumping (DatabaseEngine δ) ∧
    DumpAlike Volatile Volatile ∧ DumpAlike (DatabaseEngine δ) (DatabaseEngine δ) ∧
    DumpAlike Volatile (DatabaseEngine δ) ∧
    (∀ (cat : Catalog) (p : Panel) (env : Environment Volatile),
      ¬ Faults Volatile ((cat.dump p).run env).1) ∧
    (∀ {ε : Type} [Engine ε] {cat : Catalog} {p : Panel} (env : Environment ε), p ∉ cat.panels →
      (cat.dump p).run env =
        (.ok none, { env with journal := env.journal.push (.dumpSkipped p) })) ∧
    ∀ p : Panel, (p.dumpPolicy.metric, p.dumpPolicy.kind) =
      if p = .visitors then (.dataMap, .text) else (.hits, .integer) := by
  refine ⟨dumping _, dumping _, dumpAlike _ _, dumpAlike _ _, dumpAlike _ _, ?_, ?_, ?_⟩
  · rintro cat p env ⟨x, hx, hfull⟩
    exact Bool.noConfusion ((Roomless.dump cat p env x hx).symm.trans hfull)
  · exact fun env hp => Catalog.run_dump_unlisted hp env
  · intro p
    cases p <;> rfl

end TrafficStore
