import TrafficStore.Proofs.Room
import TrafficStore.Proofs.Runs

namespace TrafficStore

open ScopeViews Books

namespace KeyKind

def Shape : KeyKind → Bytes → Prop
  | name, bs => ∃ s, bs = Text.Utf8.encode s
  | id, bs => bs.length = 4

theorem shape_bytes : ∀ (k : KeyKind) (a : k.Carrier), k.Shape (k.bytes a)
  | name, s => ⟨s, rfl⟩
  | id, n => length_littleEndian 4 n.toUInt32.toNat

end KeyKind

namespace CellKind

def Shape : CellKind → Bytes → Prop
  | int, bs => bs.length = 4
  | word, bs => bs.length = 8
  | text, bs => ∃ s, bs = Text.Utf8.encode s ++ [0]

theorem shape_encode : ∀ (v : CellKind) (c : v.Carrier), v.Shape (v.format.encode c)
  | int, n => length_littleEndian 4 n.toUInt32.toNat
  | word, n => length_littleEndian 8 n.toNat
  | text, s => ⟨s, rfl⟩

theorem decode_of_shape : ∀ {v : CellKind} {bs : Bytes}, v.Shape bs →
    ∃ c, v.format.decode bs = .ok c
  | int, _, h => ⟨_, if_pos h⟩
  | word, _, h => ⟨_, if_pos h⟩
  | text, _, ⟨s, hs⟩ => ⟨beforeNul s, by rw [hs]; exact Format.decode_text_encode s⟩

end CellKind

namespace TableId

/-- The kinds of a table's keys and cells; nothing is ever stored about agents by panel. -/
def layout? : TableId → Option (KeyKind × CellKind)
  | panel _ .agents => none
  | t => some (t.keyKind, t.cellKind)

def Fits (t : TableId) (r : Bytes × Bytes) : Prop :=
  ∃ k v, t.layout? = some (k, v) ∧ k.Shape r.1 ∧ v.Shape r.2

end TableId

def WellLaid (c : Content) : Prop :=
  ∀ name table, c.find? name = some table → ∃ t : TableId, t.name = name ∧
    ∀ r ∈ table.entries, t.Fits r

namespace Rewrite

variable {α β : Type} {t : TableId} {k : KeyKind} {v : CellKind} {table : Table}

def Suits (t : TableId) (asks : Prop) (w : Rewrite α) : Prop :=
  ∀ table : Table, (∀ r ∈ table.entries, t.Fits r) → match w table with
    | .ok (_, table') => ∀ r ∈ table'.entries, t.Fits r
    | .error x => asks ∧ x = .idsExhausted t.name

theorem field_of_fits (hl : t.layout? = some (k, v)) (h : ∀ r ∈ table.entries, t.Fits r)
    (key : Key) : ∃ c, field v.format key table = .ok c := by
  rw [field]
  cases hfind : table.find? key.bytes with
  | none => exact ⟨none, rfl⟩
  | some bs =>
      obtain ⟨k', v', hl', _, hbs⟩ := h _ (SortedMap.find?_eq_some_iff.1 hfind)
      cases hl.symm.trans hl'
      obtain ⟨c, hc⟩ := CellKind.decode_of_shape hbs
      exact ⟨some c, by rw [Format.read, hc]; rfl⟩

theorem fits_insert (hl : t.layout? = some (k, v)) (h : ∀ r ∈ table.entries, t.Fits r)
    (a : k.Carrier) (c : v.Carrier) :
    ∀ r ∈ (table.insert (k.bytes a) (v.format.encode c)).entries, t.Fits r := by
  intro r hr
  rcases SortedMap.mem_insertEntry hr with rfl | hr
  · exact ⟨k, v, hl, k.shape_bytes a, v.shape_encode c⟩
  · exact h r hr

namespace Suits

variable {asks : Prop}

theorem map {w : Rewrite α} (h : w.Suits t asks) (g : α → β) : (w.map g).Suits t asks := by
  intro table hfits
  have h := h table hfits
  rw [Rewrite.map]
  cases hw : w table with
  | error x => rw [hw] at h; exact h
  | ok p => rw [hw] at h; exact h

theorem find (hl : t.layout? = some (k, v)) (key : Key) :
    (Rewrite.find v.format key).Suits t asks := by
  intro table hfits
  obtain ⟨c, hc⟩ := field_of_fits hl hfits key
  rw [Rewrite.find, hc]
  exact hfits

theorem count : Rewrite.count.Suits t asks := fun _ hfits => hfits

theorem put (hl : t.layout? = some (k, v)) (a : k.Carrier) (c : v.Carrier) :
    (Rewrite.put v.format (k.key a) c).Suits t asks :=
  fun _ hfits => fits_insert hl hfits a c

theorem accumulate (hl : t.layout? = some (k, v)) (zero : v.Carrier)
    (add : v.Carrier → v.Carrier → v.Carrier) (a : k.Carrier) (delta : v.Carrier) :
    (Rewrite.accumulate v.format zero add (k.key a) delta).Suits t asks := by
  intro table hfits
  obtain ⟨c, hc⟩ := field_of_fits hl hfits (k.key a)
  rw [Rewrite.accumulate, hc]
  exact fits_insert hl hfits a (add (c.getD zero) delta)

theorem raise (hl : t.layout? = some (k, .word)) (a : k.Carrier) (candidate : UInt64) :
    (Rewrite.raise (k.key a) candidate).Suits t asks := by
  intro table hfits
  obtain ⟨c, hc⟩ := field_of_fits hl hfits (k.key a)
  have hfield : Rewrite.field .word (k.key a) table = .ok c := hc
  rw [Rewrite.raise, hfield]
  by_cases hlt : c.getD 0 < candidate
  · simp only [Except.map, if_pos hlt]
    exact fits_insert hl hfits a candidate
  · simp only [Except.map, if_neg hlt]
    exact hfits

theorem allocate (hasks : asks) (hl : t.layout? = some (.name, .int)) (name : String) :
    (Rewrite.allocate t.name name).Suits t asks := by
  intro table hfits
  obtain ⟨c, hc⟩ := field_of_fits hl hfits (.name name)
  have hfield : Rewrite.field .int (.name name) table = .ok c := hc
  rw [Rewrite.allocate, hfield]
  cases c with
  | some id => exact hfits
  | none =>
      cases TableId.nextId? table.size with
      | none => exact ⟨hasks, rfl⟩
      | some id => exact fits_insert hl hfits name id

theorem dump {kind : ValueKind} (hl : t.layout? = some (.id, kind.cell)) :
    (Rewrite.dump kind).Suits t asks := by
  intro table hfits
  have hitem : ∀ r ∈ table.entries, ∃ x, Dump.decodeItem kind r = .ok x ∧
      Format.int.encode x.key = r.1 := by
    rintro ⟨key, value⟩ hr
    obtain ⟨k', v', hl', hkey, hvalue⟩ := hfits _ hr
    cases hl.symm.trans hl'
    obtain ⟨n, hn⟩ := CellKind.decode_of_shape (v := .int) hkey
    obtain ⟨c, hc⟩ := CellKind.decode_of_shape hvalue
    have hbytes : KeyKind.bytes .id n = key := Format.int_encode_of_decode hn
    exact ⟨kind.item (n, c), by rw [← hbytes]; exact kind.decodeItem_eq hc,
      by rw [kind.item_key]; exact hbytes⟩
  obtain ⟨items, hitems, _⟩ := Dump.decodeItems_ok hitem
  rw [Rewrite.dump, hitems]
  exact hfits

end Suits

end Rewrite

theorem wellLaid_empty : WellLaid .empty := fun _ _ h => nomatch h

variable {α : Type} {c : Content} {t : TableId}

theorem WellLaid.fits (h : WellLaid c) {table : Table} (hc : c.find? t.name = some table) :
    ∀ r ∈ table.entries, t.Fits r := by
  obtain ⟨u, hu, hfits⟩ := h t.name table hc
  cases TableId.name_injective hu
  exact hfits

theorem WellLaid.insert (h : WellLaid c) {table : Table} (hfits : ∀ r ∈ table.entries, t.Fits r) :
    WellLaid (c.insert t.name table) := by
  intro name table' hfind
  rw [SortedMap.find?_insert] at hfind
  by_cases hn : name = t.name
  · rw [if_pos hn] at hfind
    cases hfind
    exact ⟨t, hn.symm, hfits⟩
  · rw [if_neg hn] at hfind
    exact h name table' hfind

theorem WellLaid.withTables (h : WellLaid c) (ts : List TableId) : WellLaid (withTables ts c) := by
  intro name table hfind
  rw [Books.withTables, Volatile.Writer.find?_foldl_createTable] at hfind
  cases hc : c.find? name with
  | some table' =>
      rw [hc] at hfind
      cases hfind
      exact h name table hc
  | none =>
      rw [hc] at hfind
      by_cases hmem : (ts.map TableId.name).contains name = true
      · rw [if_pos hmem] at hfind
        cases hfind
        obtain ⟨t, _, ht⟩ := List.mem_map.1 (List.contains_iff_mem.1 hmem)
        exact ⟨t, ht, fun r hr => absurd hr List.not_mem_nil⟩
      · rw [if_neg hmem] at hfind
        cases hfind

def Lays (cat : Catalog) (asks : Prop) (f : Change α) : Prop :=
  ∀ c, WellLaid c → Ready cat c → match f c with
    | .ok (_, c') => WellLaid c'
    | .error x => asks ∧ ∃ t : TableId, x = .idsExhausted t.name

namespace Lays

variable {cat : Catalog} {asks : Prop}

theorem onRecords {w : Rewrite α} (hw : w.Suits t asks) (missing : α) :
    Lays cat asks (cat.onRecords t missing w) := by
  intro c hlaid hready
  by_cases ht : t ∈ cat.tables
  · obtain ⟨table, hc⟩ := SortedMap.contains_iff.1 (hready t ht)
    have hw := hw table (hlaid.fits hc)
    rw [Catalog.onRecords_mem ht, TableId.onRecords_some hc]
    cases hrun : w table with
    | error x => rw [hrun] at hw; exact hw.imp_right (fun hx => ⟨t, hx⟩)
    | ok p => rw [hrun] at hw; exact hlaid.insert hw
  · rw [Catalog.onRecords_not_mem ht]
    exact hlaid

theorem lookUp_ok (hlaid : WellLaid c) (hready : Ready cat c) {k : KeyKind} {v : CellKind}
    (ht : t ∈ cat.tables) (hl : t.layout? = some (k, v)) (key : Key) :
    ∃ a, t.lookUp v.format key c = .ok a := by
  obtain ⟨table, hc⟩ := SortedMap.contains_iff.1 (hready t ht)
  rw [TableId.lookUp, hc]
  exact Rewrite.field_of_fits hl (hlaid.fits hc) key

theorem rootLabelOf_ok (hlaid : WellLaid c) (hready : Ready cat c) {p : Panel} (hp : p ∈ cat.panels)
    (id : Int32) :
    ∃ label, Catalog.rootLabelOf (.panel p .root) (.panel p .rootMap) id c = .ok label := by
  obtain ⟨root, hroot⟩ := lookUp_ok (v := .int) hlaid hready
    (Catalog.panel_mem_tables.2 hp : TableId.panel p .root ∈ cat.tables) rfl (.id id)
  have hroot : (TableId.panel p .root).lookUp .int (.id id) c = .ok root := hroot
  rw [Catalog.rootLabelOf, hroot]
  cases root with
  | none => exact ⟨none, rfl⟩
  | some r =>
      change ∃ label, (if r = 0 then _ else _) = Except.ok label
      by_cases h0 : r = 0
      · exact ⟨none, if_pos h0⟩
      · rw [if_neg h0]
        exact lookUp_ok (v := .text) hlaid hready
          (Catalog.panel_mem_tables.2 hp : TableId.panel p .rootMap ∈ cat.tables) rfl (.id r)

theorem rootLabel (p : Panel) (id : Int32) (answer : Option String → α) :
    Lays cat asks ((cat.rootLabelEffect p id).map answer) := by
  intro c hlaid hready
  rw [Change.map, Catalog.rootLabelEffect]
  by_cases hp : p ∈ cat.panels
  · obtain ⟨label, hlabel⟩ := rootLabelOf_ok hlaid hready hp id
    rw [if_pos hp, hlabel]
    exact hlaid
  · rw [if_neg hp]
    exact hlaid

end Lays

theorem Access.suits_rewrite {a : Access} {k : KeyKind} {v : CellKind}
    {turn : Turn k.Carrier v.Carrier Reply} (hl : t.layout? = some (k, v))
    (h : a.turn? t.name k v = some turn) : (a.rewrite t).Suits t (a.allocates = true) := by
  unfold rewrite
  cases a with
  | findInt key | intOrZero key =>
      cases v with
      | int => exact .map (.find (v := .int) hl key) _
      | _ => cases h
  | findText key =>
      cases v with
      | text => exact .map (.find (v := .text) hl key) _
      | _ => cases h
  | wordOrZero key =>
      cases v with
      | word => exact .map (.find (v := .word) hl key) _
      | _ => cases h
  | cardinality => exact .map .count _
  | putInt key c =>
      cases v with
      | int =>
          obtain ⟨i, rfl, -⟩ := turn_at h
          exact .map (.put hl i c) _
      | _ => cases h
  | putWord key c =>
      cases v with
      | word =>
          obtain ⟨i, rfl, -⟩ := turn_at h
          exact .map (.put hl i c) _
      | _ => cases h
  | putText key c =>
      cases v with
      | text =>
          obtain ⟨i, rfl, -⟩ := turn_at h
          exact .map (.put hl i c) _
      | _ => cases h
  | addInt key delta =>
      cases v with
      | int =>
          obtain ⟨i, rfl, -⟩ := turn_at h
          exact .map (.accumulate (v := .int) hl (0 : Int32) TrafficStore.addInt i delta) _
      | _ => cases h
  | addWord key delta =>
      cases v with
      | word =>
          obtain ⟨i, rfl, -⟩ := turn_at h
          exact .map (.accumulate (v := .word) hl (0 : UInt64) TrafficStore.addWord i delta) _
      | _ => cases h
  | raise key candidate =>
      cases v with
      | word =>
          obtain ⟨i, rfl, -⟩ := turn_at h
          exact .map (.raise hl i candidate) _
      | _ => cases h
  | allocate name =>
      cases v with
      | int =>
          cases k with
          | name => exact .map (.allocate rfl hl name) _
          | id => cases h
      | _ => cases h
  | dump p kind order =>
      cases k with
      | name => cases kind <;> cases order <;> cases v <;> cases h
      | id =>
          cases kind <;> cases order <;> cases v <;> cases h
          · exact .map (Rewrite.Suits.dump hl) _
          · exact .map (Rewrite.Suits.dump hl) _

theorem Call.layout?_of_access {q : Call} {a : Access} (hq : q.access? = some (t, a)) :
    t.layout? = some (t.keyKind, t.cellKind) := by
  cases q with
  | dump p => cases p <;> cases hq <;> rfl
  | _ => cases hq <;> rfl

theorem lays_effect (cat : Catalog) (q : Call) :
    Lays cat (q.allocates = true) (q.effect cat) := by
  cases hq : q.access? with
  | none =>
      rcases Call.cases_of_access_none hq with ⟨p, id, rfl⟩ | ⟨force, rfl⟩
      · exact .rootLabel p id Reply.maybeText
      · exact fun c hlaid _ => hlaid
  | some ta =>
      obtain ⟨w, hw⟩ := turn?_of_access hq
      rw [Call.effect_eq hq, Call.allocates_eq hq]
      exact .onRecords (.map (Access.suits_rewrite (Call.layout?_of_access hq) hw) _) _

def Answered.Excused (F : Call → StorageError → Prop) (a : Answered) : Prop :=
  (∃ r, a.answer = .reply r) ∨ ∃ x, a.answer = .failed x ∧
    (F a.call x ∨ a.call.allocates = true ∧ ∃ t : TableId, x = .idsExhausted t.name)

theorem lasting_wellLaid {ε : Type} [Engine ε] [ScopeViews ε] {F : Call → StorageError → Prop}
    (hF : ∀ {cat q x} {env env' : Environment ε}, (q.run cat).run env = (.error x, env') →
      ScopeViews.Fault ε x → F q x) :
    Lasting ε WellLaid (Answered.Excused F) where
  replied {cat q c r c'} hlaid hready he := by
    have h := lays_effect cat q c hlaid hready
    rw [he] at h
    exact ⟨h, .inl ⟨r, rfl⟩⟩
  refused {cat q c x} hlaid hready he := by
    have h := lays_effect cat q c hlaid hready
    rw [he] at h
    exact .inr ⟨x, rfl, .inr h⟩
  faulted {cat q x env env'} hrun hx := .inr ⟨x, rfl, .inl (hF hrun hx)⟩

theorem Answered.Excused.reply {a : Answered}
    (h : a.Excused (fun q x => q.writes = true ∧ x.isFull = true)) (hq : a.call.writes = false) :
    ∃ r, a.answer = .reply r := by
  rcases h with h | ⟨x, _, hx⟩
  · exact h
  · have hwrites : a.call.writes = true :=
      hx.elim And.left (fun hx => Call.writes_of_allocates hx.1)
    rw [hq] at hwrites
    cases hwrites

theorem writes_of_isFull {cat : Catalog} {q : Call} {x : StorageError}
    {env env' : Environment Volatile} (hrun : (q.run cat).run env = (.error x, env'))
    (hx : x.isFull = true) : q.writes = true := by
  cases hq : q.writes with
  | true => rfl
  | false =>
      have hroom : x.isFull = false := q.roomless_run cat hq env x (by rw [hrun])
      rw [hx] at hroom
      cases hroom

theorem wellLaid_volatile {o : Opening} {s : Session Volatile} (h : o.volatile = .ok s) :
    WellLaid (s.answered o.calls).2.environment.engine.content ∧
      ∀ a ∈ (s.answered o.calls).1,
        a.Excused (fun q x => q.writes = true ∧ x.isFull = true) := by
  have hlasting : Lasting Volatile WellLaid
      (Answered.Excused (fun q x => q.writes = true ∧ x.isFull = true)) :=
    lasting_wellLaid (fun hrun hx => ⟨writes_of_isFull hrun hx, hx⟩)
  have hhas : s.Has WellLaid :=
    Session.has_start trivial (wellLaid_empty.withTables _) h
  obtain ⟨hhas', hgood⟩ := hlasting.answered hhas o.calls
  exact ⟨hhas'.holds, hgood⟩

theorem wellLaid_from_empty {δ : Type} [Database δ] [LawfulDatabase δ] {d : δ}
    (hd : Database.content d = .empty) (os : List Opening) (o : Opening) :
    (WellLaid (Database.content (history d os).2) ∧
      (∀ as, .ok as ∈ (history d os).1 → ∀ a ∈ as, a.Excused (fun _ x => x.isFull = true ∨
        ∃ stage reason, x = .engine stage reason ∧ DatabaseViews.Fails δ reason)) ∧
      ∀ x, .error x ∈ (history d os).1 → (x.isFull = true ∨
        ∃ stage reason, x = .engine stage reason ∧ DatabaseViews.Fails δ reason) ∨
        ∃ requested limit, x = .tableLimit requested limit) ∧
    ∀ s, o.volatile = .ok s →
      WellLaid (s.answered o.calls).2.environment.engine.content ∧
      ∀ a ∈ (s.answered o.calls).1,
        a.Excused (fun q x => q.writes = true ∧ x.isFull = true) ∧
        (a.call.writes = false → ∃ r, a.answer = .reply r) := by
  have hlasting : Lasting (DatabaseEngine δ) WellLaid (Answered.Excused (fun _ x =>
      x.isFull = true ∨ ∃ stage reason, x = .engine stage reason ∧ DatabaseViews.Fails δ reason)) :=
    lasting_wellLaid (fun _ hx => hx)
  have hempty : WellLaid (Database.content d) := by
    rw [hd]
    exact wellLaid_empty
  obtain ⟨hlaid, hgood⟩ := hlasting.history (fun ts c h => h.withTables ts) hempty os
  refine ⟨⟨hlaid, hgood, fun x hx => history_error d os hx⟩, fun s hs => ?_⟩
  obtain ⟨hlaid', hgood'⟩ := wellLaid_volatile hs
  exact ⟨hlaid', fun a ha => ⟨hgood' a ha, (hgood' a ha).reply⟩⟩

def mixedOpenings : List Opening :=
  [{ settings := {}, panels := [.visitors, .os],
      calls := [.assignKey .os "", .putLabel .visitors (-1) "a\x00b", .linkRoot .os 1 7,
        .addMetadata .os "x\x00y" 3, .addHits .hosts 1 1] },
    { settings := { maxTables := 18 }, panels := [.os] },
    { settings := {}, panels := [.visitors, .os, .os],
      calls := [.rootLabel .os 1, .dump .visitors, .findKey .os "", .markVisitor .hosts ""] }]

theorem wellLaid_from_empty_mixedOpenings :
    Database.content ({} : TableFile) = .empty ∧
    WellLaid (Database.content (history ({} : TableFile) mixedOpenings).2) ∧
    (history ({} : TableFile) mixedOpenings).1.map
        (fun r => r.toOption.map (fun as => as.map Answered.answer)) =
      [some [.reply (.maybeInt (some 1)), .reply .done, .reply .done, .reply (.word 3),
        .reply (.int 0)],
        none,
        some [.reply (.maybeText none),
          .reply (.maybeDump (some ⟨.visitors, .text, [⟨-1, .text "a"⟩]⟩)),
          .reply (.maybeInt (some 1)), .reply (.flag false)]] := by
  refine ⟨rfl, ?_, by decide +kernel⟩
  exact (wellLaid_from_empty (d := ({} : TableFile)) rfl mixedOpenings { settings := {} }).1.1

end TrafficStore
