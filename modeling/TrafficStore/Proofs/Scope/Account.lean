import TrafficStore.Proofs.Engine.Volatile
import TrafficStore.Proofs.Scope.Alike
import TrafficStore.Proofs.Scope.Written

namespace TrafficStore

namespace Volatile

open Writer

theorem toNat_recordSize {key value : Bytes} (hk : key.length < 2 ^ 63)
    (hv : value.length < 2 ^ 63) :
    (recordSize key value).toNat = key.length + value.length := by
  rw [recordSize, UInt64.toNat_ofNat', Nat.mod_eq_of_lt (by omega)]

structure Counts (e e' : Volatile) : Prop where
  content : e'.content = e.content
  size : e'.size = e.size
  maxSize : e'.maxSize = e.maxSize

theorem Counts.refl (e : Volatile) : Counts e e := ⟨rfl, rfl, rfl⟩

theorem counts_countLookup (e : Volatile) (table : String) : Counts e (e.countLookup table) :=
  ⟨rfl, rfl, rfl⟩

structure Writer.Fits (max : UInt64) (committed : Nat) (v : Writer) : Prop where
  valid : v.Valid
  bytes : v.outcome.bytes ≤ committed + v.added.toNat
  room : committed + v.added.toNat ≤ max.toNat

def Looks {σ α : Type} (m : ScopeM Volatile σ α) : Prop :=
  ∀ s e, ∃ o e', m.run (s, e) = (o, (s, e')) ∧ Counts e e'

theorem looks_find (table : String) (key : Bytes) :
    Looks (reading.find table key) ∧ Looks (rereading.find table key) := by
  refine ⟨fun c e => ?_, fun v e => ?_⟩
  · cases h : c.find? table with
    | some t => exact ⟨_, _, by simp only [reading, h]; rfl, counts_countLookup e table⟩
    | none => exact ⟨_, _, by simp only [reading, h]; rfl, .refl e⟩
  · by_cases h : v.has table = true
    · exact ⟨_, _, by simp only [rereading, if_pos h]; rfl, counts_countLookup e table⟩
    · exact ⟨_, _, by simp only [rereading, if_neg h]; rfl, .refl e⟩

theorem looks_count (table : String) :
    Looks (reading.count table) ∧ Looks (rereading.count table) := by
  refine ⟨fun c e => ?_, fun v e => ?_⟩
  · cases h : c.find? table <;> exact ⟨_, _, by simp only [reading, h]; rfl, .refl e⟩
  · by_cases h : v.has table = true <;> exact ⟨_, _, by simp only [rereading, h]; rfl, .refl e⟩

theorem looks_scan (table : String) :
    Looks (reading.scan table) ∧ Looks (rereading.scan table) := by
  refine ⟨fun c e => ?_, fun v e => ?_⟩
  · cases h : c.find? table <;> exact ⟨_, _, by simp only [reading, h]; rfl, .refl e⟩
  · by_cases h : v.has table = true <;> exact ⟨_, _, by simp only [rereading, h]; rfl, .refl e⟩

structure Kept (max : UInt64) (d : Desk Volatile) (w : Written) : Prop where
  distinct : d.Distinct
  limit : d.engine.maxSize = max
  size : d.engine.size.toNat = w.committed
  bytes : d.engine.content.bytes ≤ w.committed
  room : w.committed ≤ max.toNat
  writer : ∀ name a, w.writer = some (name, a) ↔
    ∃ v, d.scope? name = some (.writer v) ∧ v.added.toNat = a
  fits : ∀ name v, d.scope? name = some (.writer v) → v.Fits max w.committed

namespace Kept

variable {max : UInt64} {d : Desk Volatile} {w : Written} {name : String} {v : Writer}

theorem start (max : UInt64) : Kept max { engine := { maxSize := max } } {} where
  distinct := List.nodup_nil
  limit := rfl
  size := rfl
  bytes := Nat.le_refl 0
  room := Nat.zero_le _
  writer name a := by simp [Desk.scope?]
  fits name v h := by simp [Desk.scope?] at h

theorem move (h : Kept max d w) {e : Volatile} (he : Counts d.engine e) :
    Kept max { d with engine := e } w where
  distinct := h.distinct
  limit := he.maxSize.trans h.limit
  size := by rw [he.size]; exact h.size
  bytes := by rw [he.content]; exact h.bytes
  room := h.room
  writer := h.writer
  fits := h.fits

theorem writer_self (h : Kept max d w) (hv : d.scope? name = some (.writer v)) :
    w.writer = some (name, v.added.toNat) :=
  (h.writer name _).2 ⟨v, hv, rfl⟩

theorem writer_unique (h : Kept max d w) (hv : d.scope? name = some (.writer v)) :
    ∀ n v', d.scope? n = some (.writer v') → n = name := by
  intro n v' hv'
  have he := (h.writer_self hv').symm.trans (h.writer_self hv)
  exact congrArg Prod.fst (Option.some.inj he)

theorem not_writer (h : Kept max d w) (hs : ∀ v, d.scope? name ≠ some (.writer v)) :
    ∀ a, w.writer ≠ some (name, a) := by
  intro a ha
  obtain ⟨v, hv, _⟩ := (h.writer name a).1 ha
  exact hs v hv

theorem close (h : Kept max d w) (name : String) : Kept max (d.close name) (w.forget name) where
  distinct := h.distinct.close
  limit := h.limit
  size := h.size
  bytes := h.bytes
  room := h.room
  writer n a := by
    rw [Written.writer_forget_eq_some, h.writer, Desk.scope?_close]
    by_cases hn : n = name <;> simp [hn]
  fits n v hv := by
    rw [Desk.scope?_close] at hv
    split at hv
    · cases hv
    · exact h.fits n v hv

theorem hold_reader (h : Kept max d w) (name : String) (r : Content) :
    Kept max (d.hold name (.reader r)) (w.forget name) where
  distinct := h.distinct.hold
  limit := h.limit
  size := h.size
  bytes := h.bytes
  room := h.room
  writer n a := by
    rw [Written.writer_forget_eq_some, h.writer, Desk.scope?_hold]
    by_cases hn : n = name <;> simp [hn]
  fits n v hv := by
    rw [Desk.scope?_hold] at hv
    split at hv
    · cases hv
    · exact h.fits n v hv

theorem hold_writer (h : Kept max d w) (hv : v.Fits max w.committed)
    (hone : ∀ n v', d.scope? n = some (.writer v') → n = name) :
    Kept max (d.hold name (.writer v)) { w with writer := some (name, v.added.toNat) } where
  distinct := h.distinct.hold
  limit := h.limit
  size := h.size
  bytes := h.bytes
  room := h.room
  writer n a := by
    rw [Desk.scope?_hold]
    by_cases hn : n = name
    · subst hn
      simp
    · rw [if_neg hn]
      constructor
      · intro he
        exact absurd (congrArg Prod.fst (Option.some.inj he)).symm hn
      · rintro ⟨v', hv', -⟩
        exact absurd (hone n v' hv') hn
  fits n v' hv' := by
    rw [Desk.scope?_hold] at hv'
    split at hv'
    · cases hv'
      exact hv
    · exact h.fits n v' hv'

theorem toNat_used (h : Kept max d w) (hv : d.scope? name = some (.writer v)) :
    (d.engine.size + v.added).toNat = w.committed + v.added.toNat := by
  have hroom := (h.fits name v hv).room
  have hmax : max.toNat < 2 ^ 64 := max.toNat_lt
  rw [UInt64.toNat_add, h.size, Nat.mod_eq_of_lt (by omega)]

theorem publish (h : Kept max d w) (hv : d.scope? name = some (.writer v)) {e : Volatile}
    (hcontent : e.content = v.outcome) (hsize : e.size = d.engine.size + v.added)
    (hmax : e.maxSize = d.engine.maxSize) :
    Kept max (({ d with engine := e } : Desk Volatile).close name) (w.publish name) := by
  have hfits := h.fits name v hv
  have hgone : ∀ n v', (d.close name).scope? n ≠ some (.writer v') := by
    intro n v' hv'
    rw [Desk.scope?_close] at hv'
    split at hv'
    · cases hv'
    · next hn => exact hn (h.writer_unique hv n v' hv')
  rw [Written.publish_self (h.writer_self hv)]
  exact {
    distinct := h.distinct.close
    limit := hmax.trans h.limit
    size := by rw [← h.toNat_used hv, ← hsize]; rfl
    bytes := by
      change e.content.bytes ≤ _
      rw [hcontent]
      exact hfits.bytes
    room := hfits.room
    writer := fun n a => ⟨fun he => (nomatch he), fun ⟨v', hv', _⟩ => absurd hv' (hgone n v')⟩
    fits := fun n v' hv' => absurd hv' (hgone n v') }

theorem look (h : Kept max d w) {α : Type} {inReader : ScopeM Volatile Content α}
    {inWriter : ScopeM Volatile Writer α} (hlooks : Looks inReader ∧ Looks inWriter)
    (answer : α → ScopeAnswer) (failure : StorageError → ScopeAnswer) :
    Kept max (d.inScope name (Scope.look inReader inWriter) answer failure).2 w := by
  have hheld : ∀ {s e}, d.scope? name = some s → Counts d.engine e →
      Kept max (({ d with engine := e } : Desk Volatile).hold name s) w := by
    intro s e hs he
    have hmoved := h.move he
    cases s with
    | reader r =>
        have hno := h.not_writer (fun v (hv : d.scope? name = _) => by rw [hs] at hv; cases hv)
        rw [← Written.forget_of_ne hno]
        exact hmoved.hold_reader name r
    | writer v =>
        have hold := hmoved.hold_writer (h.fits name v hs) (h.writer_unique hs)
        rw [← h.writer_self hs] at hold
        exact hold
  rw [Desk.inScope]
  cases hs : d.scope? name with
  | none => exact h
  | some s =>
      cases s with
      | reader r =>
          obtain ⟨x | a, e, hrun, he⟩ := hlooks.1 r d.engine <;>
            simp only [Scope.look, hrun] <;> exact hheld hs he
      | writer v =>
          obtain ⟨x | a, e, hrun, he⟩ := hlooks.2 v d.engine <;>
            simp only [Scope.look, hrun] <;> exact hheld hs he

end Kept

theorem inWriter_writer {d : Desk Volatile} {name : String} {v : Writer}
    (hv : d.scope? name = some (.writer v)) (m : ScopeM Volatile Writer Unit) :
    d.inWriter name m =
      match m.run (v, d.engine) with
      | (.ok _, v, e) => (.done, ({ d with engine := e } : Desk Volatile).hold name (.writer v))
      | (.error x, v, e) =>
          (.failed x, ({ d with engine := e } : Desk Volatile).hold name (.writer v)) := by
  simp only [Desk.inWriter, Desk.inScope, hv, Scope.change, Scope.look]
  rcases m.run (v, d.engine) with ⟨x | u, v', e⟩ <;> rfl

theorem inWriter_other {d : Desk Volatile} {name : String}
    (hs : ∀ v, d.scope? name ≠ some (.writer v)) (m : ScopeM Volatile Writer Unit) :
    ∃ r, d.inWriter name m = (.refused r, d) := by
  cases h : d.scope? name with
  | none => exact ⟨.noScope, by simp only [Desk.inWriter, Desk.inScope, h]⟩
  | some s =>
      cases s with
      | reader r => exact ⟨.readOnly, by simp only [Desk.inWriter, h]⟩
      | writer v => exact absurd h (hs v)

theorem step_put {d : Desk Volatile} {name : String} {v : Writer}
    (hv : d.scope? name = some (.writer v)) (table : String) (key value : Bytes) :
    d.step (.put name table key value) =
      if v.has table then
        if d.engine.maxSize < addWord (d.engine.used v) (recordSize key value) then
          (.failed (.full (d.engine.used v).toNat d.engine.maxSize.toNat),
            d.hold name (.writer v))
        else (.done, d.hold name (.writer (v.stage table key value)))
      else (.failed (.unknownTable table), d.hold name (.writer v)) := by
  rw [Desk.step, inWriter_writer hv]
  simp only [Engine.put, put]
  by_cases ht : v.has table = true
  · by_cases hfull : d.engine.maxSize < addWord (d.engine.used v) (recordSize key value)
    · simp only [if_pos ht, if_pos hfull]
    · simp only [if_pos ht, if_neg hfull]
  · simp only [if_neg ht]

theorem Writer.toNat_stage (v : Writer) (table : String) {key value : Bytes}
    (hk : key.length < 2 ^ 63) (hl : value.length < 2 ^ 63)
    (hroom : v.added.toNat + (key.length + value.length) ≤ wordMax) :
    (v.stage table key value).added.toNat = v.added.toNat + (key.length + value.length) := by
  rw [stage, UInt64.toNat_add, toNat_recordSize hk hl]
  exact Nat.mod_eq_of_lt (Nat.lt_succ_of_le hroom)

namespace Writer.Fits

variable {max : UInt64} {committed : Nat} {v : Writer}

theorem begin {c : Content} (hbytes : c.bytes ≤ committed) (hroom : committed ≤ max.toNat) :
    ({ base := c } : Writer).Fits max committed where
  valid := valid_begin c
  bytes := hbytes
  room := hroom

theorem create (h : v.Fits max committed) {table : String} (ht : ¬ v.has table = true) :
    ({ v with created := v.created ++ [table] } : Writer).Fits max committed where
  valid := valid_noteCreated h.valid table
  bytes := by
    rw [outcome_noteCreated h.valid ht,
      Content.bytes_create (find?_outcome_of_not_has h.valid ht)]
    exact h.bytes
  room := h.room

theorem stage (h : v.Fits max committed) {table : String} (ht : v.has table = true)
    {key value : Bytes} (hk : key.length < 2 ^ 63) (hl : value.length < 2 ^ 63)
    (hroom : committed + v.added.toNat + (key.length + value.length) ≤ max.toNat) :
    (v.stage table key value).Fits max committed := by
  have hmax : max.toNat ≤ wordMax := Nat.le_of_lt_succ max.toNat_lt
  have hadded := v.toNat_stage table hk hl (by omega)
  refine ⟨valid_stage h.valid ht key value, ?_, by omega⟩
  have hput := Content.bytes_put_le (find?_outcome_of_has h.valid ht) key value
  have hbytes := h.bytes
  rw [outcome_stage h.valid ht, hadded]
  omega

end Writer.Fits

namespace Kept

variable {max : UInt64} {d : Desk Volatile} {w : Written} {name table : String} {v : Writer}
  {key value : Bytes}

theorem full_iff (h : Kept max d w) (hmax : max.toNat < wordMax)
    (hv : d.scope? name = some (.writer v)) (hk : key.length < 2 ^ 63)
    (hl : value.length < 2 ^ 63) :
    d.engine.maxSize < addWord (d.engine.used v) (recordSize key value) ↔
      max.toNat < w.committed + v.added.toNat + (key.length + value.length) := by
  -- the sum that is compared stops at the largest word, which is beyond the limit
  rw [h.limit, UInt64.lt_iff_toNat_lt, addWord, toNat_clampWord, used, h.toNat_used hv,
    toNat_recordSize hk hl]
  omega

theorem step_put_full (h : Kept max d w) (hmax : max.toNat < wordMax)
    (hv : d.scope? name = some (.writer v)) (ht : v.has table = true) (hk : key.length < 2 ^ 63)
    (hl : value.length < 2 ^ 63)
    (hfull : max.toNat < w.committed + v.added.toNat + (key.length + value.length)) :
    d.step (.put name table key value) =
      (.failed (.full (w.committed + v.added.toNat) max.toNat), d.hold name (.writer v)) := by
  rw [step_put hv, if_pos ht, if_pos ((h.full_iff hmax hv hk hl).2 hfull), used,
    h.toNat_used hv, h.limit]

theorem step_put_done (h : Kept max d w) (hmax : max.toNat < wordMax)
    (hv : d.scope? name = some (.writer v)) (ht : v.has table = true) (hk : key.length < 2 ^ 63)
    (hl : value.length < 2 ^ 63)
    (hroom : ¬ max.toNat < w.committed + v.added.toNat + (key.length + value.length)) :
    d.step (.put name table key value) =
      (.done, d.hold name (.writer (v.stage table key value))) := by
  rw [step_put hv, if_pos ht, if_neg (fun hfull => hroom ((h.full_iff hmax hv hk hl).1 hfull))]

theorem hold_self (h : Kept max d w) (hv : d.scope? name = some (.writer v)) :
    Kept max (d.hold name (.writer v)) w := by
  have hold := h.hold_writer (h.fits name v hv) (h.writer_unique hv)
  rw [← h.writer_self hv] at hold
  exact hold

theorem put (h : Kept max d w) (hmax : max.toNat < wordMax) (hk : key.length < 2 ^ 63)
    (hl : value.length < 2 ^ 63) :
    let o := d.step (.put name table key value)
    Kept max o.2 (w.note (.scope (.put name table key value)) o.1) := by
  by_cases hs : ∃ v, d.scope? name = some (.writer v)
  · obtain ⟨v, hv⟩ := hs
    by_cases ht : v.has table = true
    · by_cases hfull : max.toNat < w.committed + v.added.toNat + (key.length + value.length)
      · rw [h.step_put_full hmax hv ht hk hl hfull]
        exact h.hold_self hv
      · have hfits := h.fits name v hv
        have hold := h.hold_writer (hfits.stage ht hk hl (by omega)) (h.writer_unique hv)
        rw [h.step_put_done hmax hv ht hk hl hfull]
        rw [v.toNat_stage table hk hl (by omega), ← Written.add_self (h.writer_self hv)] at hold
        exact hold
    · rw [step_put hv, if_neg ht]
      exact h.hold_self hv
  · obtain ⟨r, hr⟩ := inWriter_other (fun v hv => hs ⟨v, hv⟩) (Engine.put table key value)
    rw [Desk.step, hr]
    exact h

theorem create (h : Kept max d w) : Kept max (d.step (.create name table)).2 w := by
  rw [Desk.step]
  by_cases hs : ∃ v, d.scope? name = some (.writer v)
  · obtain ⟨v, hv⟩ := hs
    rw [inWriter_writer hv]
    simp only [Engine.create, Volatile.create]
    by_cases ht : v.has table = true
    · simp only [if_pos ht]
      exact h.hold_self hv
    · have hold := h.hold_writer ((h.fits name v hv).create ht) (h.writer_unique hv)
      rw [← h.writer_self hv] at hold
      simp only [if_neg ht]
      exact hold
  · obtain ⟨r, hr⟩ := inWriter_other (fun v hv => hs ⟨v, hv⟩) (Engine.create table)
    rw [hr]
    exact h

theorem commit (h : Kept max d w) :
    let o := d.step (.commit name)
    Kept max o.2 (w.note (.scope (.commit name)) o.1) := by
  rw [Desk.step]
  cases hs : d.scope? name with
  | none => exact h
  | some s =>
      cases s with
      | reader r =>
          have hno := h.not_writer (fun v (hv : d.scope? name = _) => by rw [hs] at hv; cases hv)
          have hclose := h.close name
          rw [Written.forget_of_ne hno] at hclose
          change Kept max _ (w.publish name)
          rw [Written.publish_of_ne hno]
          exact hclose
      | writer v => exact h.publish hs rfl rfl rfl

theorem step (h : Kept max d w) (hmax : max.toNat < wordMax) (s : ScopeStep)
    (hs : ScriptStep.short (.scope s)) :
    Kept max (d.step s).2 (w.note (.scope s) (d.step s).1) := by
  cases s with
  | beginRead name => exact h.hold_reader name d.engine.content
  | beginWrite name =>
      rw [Desk.step]
      by_cases hw : d.hasWriter = true
      · rw [if_pos hw]
        exact h
      · rw [if_neg hw]
        refine h.hold_writer (Writer.Fits.begin h.bytes h.room) (fun n v' hv' => ?_)
        exact absurd ((Desk.hasWriter_iff h.distinct).2 ⟨n, v', hv'⟩) hw
  | commit name => exact h.commit
  | drop name =>
      rw [Desk.step]
      cases d.scope? name with
      | none => exact h
      | some s => exact h.close name
  | find name table key => exact h.look (looks_find table key) _ _
  | count name table => exact h.look (looks_count table) _ _
  | scan name table limit => exact h.look (looks_scan table) _ _
  | create name table =>
      exact h.create
  | put name table key value => exact h.put hmax hs.1 hs.2

theorem scriptStep (h : Kept max d w) (hmax : max.toNat < wordMax) (s : ScriptStep)
    (hs : s.short) : Kept max (d.scriptStep s).2 (w.note s (d.scriptStep s).1) := by
  cases s with
  | scope s => exact h.step hmax s hs
  | sync force => exact h
  | restart =>
      exact {
        distinct := List.nodup_nil
        limit := h.limit
        size := h.size
        bytes := h.bytes
        room := h.room
        writer := fun n a => by simp [Written.note, Desk.scriptStep, Desk.scope?]
        fits := fun n v hv => by simp [Desk.scriptStep, Desk.scope?] at hv }

theorem run (hmax : max.toNat < wordMax) (steps : List ScriptStep) :
    ∀ {d : Desk Volatile} {w : Written}, Kept max d w → (∀ s ∈ steps, s.short) →
      Kept max (d.run steps).2 (w.noteAll steps (d.run steps).1) := by
  induction steps with
  | nil => intro d w h _; exact h
  | cons s ss ih =>
      intro d w h hshort
      rw [Desk.run_cons]
      exact ih (h.scriptStep hmax s (hshort s List.mem_cons_self))
        (fun t ht => hshort t (List.mem_cons_of_mem s ht))

end Kept

structure Accounted (max : UInt64) (d : Desk Volatile) (w : Written) : Prop where
  bytes_le : d.engine.content.bytes ≤ d.engine.size.toNat
  size_le : d.engine.size.toNat ≤ max.toNat
  size_eq : d.engine.size.toNat = w.committed
  size_mono : ∀ s : ScriptStep, s.short → d.engine.size ≤ (d.scriptStep s).2.engine.size
  recordSize : ∀ key value : Bytes, key.length < 2 ^ 63 → value.length < 2 ^ 63 →
    (Writer.recordSize key value).toNat = key.length + value.length
  used : ∀ name v, d.scope? name = some (.writer v) → w.writer = some (name, v.added.toNat) ∧
    (d.engine.size + v.added).toNat = w.used
  put : ∀ name v table key value, d.scope? name = some (.writer v) → v.has table = true →
    key.length < 2 ^ 63 → value.length < 2 ^ 63 →
    let o := d.step (.put name table key value)
    if max.toNat < w.used + (key.length + value.length) then
      o.1 = .failed (.full w.used max.toNat) ∧ o.2.Alike d ∧
      ∀ steps, (o.2.run steps).1 = (d.run steps).1 ∧ (o.2.run steps).2.Alike (d.run steps).2
    else
      o.1 = .done ∧ o.2.engine = d.engine ∧
      o.2.scope? name = some (.writer (v.stage table key value)) ∧
      (v.stage table key value).added.toNat = v.added.toNat + (key.length + value.length)

theorem Kept.accounted {max : UInt64} {d : Desk Volatile} {w : Written} (h : Kept max d w)
    (hmax : max.toNat < wordMax) : Accounted max d w where
  bytes_le := by rw [h.size]; exact h.bytes
  size_le := by rw [h.size]; exact h.room
  size_eq := h.size
  size_mono s hs := by
    rw [UInt64.le_iff_toNat_le, h.size, (h.scriptStep hmax s hs).size]
    exact w.committed_le_note s _
  recordSize _ _ := toNat_recordSize
  used name v hv := by
    have hw := h.writer_self hv
    exact ⟨hw, (h.toNat_used hv).trans (Written.used_eq hw).symm⟩
  put name v table key value hv ht hk hl := by
    rw [Written.used_eq (h.writer_self hv)]
    split
    · next hfull =>
        rw [h.step_put_full hmax hv ht hk hl hfull]
        have halike := Desk.alike_hold h.distinct hv
        exact ⟨rfl, halike, fun steps => Desk.Alike.run steps halike⟩
    · next hroom =>
        rw [h.step_put_done hmax hv ht hk hl hroom]
        refine ⟨rfl, rfl, ?_, v.toNat_stage table hk hl (by omega)⟩
        rw [Desk.scope?_hold, if_pos rfl]

theorem accounted_run (max : UInt64) (hmax : max.toNat < wordMax) (steps : List ScriptStep)
    (hshort : ∀ s ∈ steps, s.short) :
    let o := Desk.run ({ engine := { maxSize := max } } : Desk Volatile) steps
    Accounted max o.2 (({} : Written).noteAll steps o.1) :=
  ((Kept.start max).run hmax steps hshort).accounted hmax

def overfullScript : List ScriptStep :=
  [.scope (.beginWrite "w"), .scope (.create "w" "t"), .scope (.put "w" "t" [1] [2, 3]),
    .scope (.put "w" "t" [1] [4]), .scope (.put "w" "t" [5] [6, 7, 8]), .scope (.commit "w"),
    .scope (.beginWrite "w"), .scope (.put "w" "t" [9] [9]), .scope (.drop "w"),
    .scope (.beginWrite "w"), .scope (.put "w" "t" [7] [])]

theorem accounted_run_overfullScript :
    (8 : UInt64).toNat < wordMax ∧ (∀ s ∈ overfullScript, s.short) ∧
    let o := Desk.run ({ engine := { maxSize := 8 } } : Desk Volatile) overfullScript
    o.1 = [.done, .done, .done, .done, .failed (.full 5 8), .done, .done, .done, .done, .done,
      .done] ∧
    ({} : Written).noteAll overfullScript o.1 = { committed := 5, writer := some ("w", 1) } ∧
    Content.bytes o.2.engine.content = 2 ∧
    Accounted 8 o.2 (({} : Written).noteAll overfullScript o.1) := by
  have hmax : (8 : UInt64).toNat < wordMax := by decide
  have hshort : ∀ s ∈ overfullScript, s.short := by
    simp [overfullScript, ScriptStep.short]
  exact ⟨hmax, hshort, by decide +kernel, by decide +kernel, by decide +kernel,
    accounted_run 8 hmax overfullScript hshort⟩

end Volatile

end TrafficStore
