import TrafficStore.Proofs.Ingest
import TrafficStore.Proofs.Outcomes
import TrafficStore.Proofs.Renaming

namespace TrafficStore

open ScopeViews Books LogRecord

def Session.Fresh {ε : Type} [Engine ε] [ScopeViews ε] (s : Session ε) (ps : List Panel) : Prop :=
  ∃ env : Environment ε, Sound env.engine ∧ Engine.committed env.engine = .empty ∧
    Session.start env (some ps) = .ok s

structure Books.Shown {ε : Type} [Engine ε] (b : Books) (cat : Catalog) (env : Environment ε) :
    Prop where
  represents : b.Represents (Engine.committed env.engine)
  dumps : ∀ p ∈ cat.panels, ∀ d env', (cat.dump p).run env = (.ok d, env') → d = some (b.dumped p)

theorem Books.Represents.shown {ε : Type} [Engine ε] [IsolatedEngine ε] {b : Books} {cat : Catalog}
    {env : Environment ε} (hb : b.Represents (Engine.committed env.engine))
    (hs : Sound env.engine) (hready : Ready cat (Engine.committed env.engine)) :
    b.Shown cat env := by
  refine ⟨hb, fun p hp d env' hrun => ?_⟩
  have hcall : ((Call.dump p).run cat).run env = (.ok (.maybeDump d), env') := by
    rw [Call.run.eq_def, Work.run_map, hrun]
  obtain ⟨_, _, b', ha, _⟩ := run_ok hs hready hb hcall
  rw [answer_dump hp] at ha
  exact (Reply.maybeDump.inj (Prod.mk.inj (Except.ok.inj ha)).1).symm

namespace Ingest

section Runs

variable {ε : Type} [Engine ε] [IsolatedEngine ε] {cat : Catalog}

def Grown (cat : Catalog) (c : Content) : Prop := ∃ rs, Keeping cat (Tally.uniform rs).Of c

theorem leads_record_grown (r : LogRecord) :
    Leads (Grown cat) (record cat r : StoreM ε Bool) (fun _ => Grown cat) (fun _ _ => True) := by
  by_cases hp : r.panel ∈ cat.panels
  · rintro env hs ⟨rs, hc⟩
    refine ((leads_record hp).mono (fun _ c h => ?_) (fun _ _ _ => trivial)) env hs hc
    have hadd := Tally.foldl_add_uniform rs [r]
    exact ⟨rs ++ [r], hadd ▸ h.2⟩
  · exact .of_alike (alike_record_ignored hp) (.pure (fun _ hc => hc))

theorem leads_lines_grown (number : Nat) (ls : List Bytes) :
    Leads (Grown cat) (lines cat number ls : IngestM ε Nat) (fun _ => Grown cat)
      (fun x c => (∀ y, x ≠ .storage y) → Grown cat c) := by
  induction ls generalizing number with
  | nil => exact .pure (fun _ hc => hc)
  | cons l ls ih =>
      have hread : Leads (Grown cat) (Work.ofExcept (readLine number l) : IngestM ε _)
          (fun r c => readLine number l = .ok r ∧ Grown cat c)
          (fun x c => (∀ y, x ≠ .storage y) → Grown cat c) :=
        (Leads.ofExcept _).mono (fun _ _ h => h) (fun _ _ h _ => h.2)
      rw [lines]
      refine hread.bind (fun r => .of_fact (fun _ => ?_))
      cases r with
      | none => exact ih (number + 1)
      | some r =>
          refine ((leads_record_grown r).mapFault (fun x _ _ hx => absurd rfl (hx x))).bind
            (fun counted => ?_)
          exact (ih (number + 1)).bind (fun n => .pure (fun _ hc => hc))

theorem leads_run_grown (input : Bytes) :
    Leads (Grown cat) (run cat input : IngestM ε Nat) (fun _ => Grown cat)
      (fun x c => (∀ y, x ≠ .storage y) → Grown cat c) := by
  refine (leads_lines_grown 1 (Text.lines input)).bind (fun n => ?_)
  have hsync : Leads (Grown cat) (Environment.sync true : StoreM ε Unit) (fun _ => Grown cat)
      (fun _ _ => True) :=
    .of_serves (serves_sync true) (fun _ hc => hc) (fun _ _ _ _ => trivial)
  exact (hsync.mapFault (fun x _ _ hx => absurd rfl (hx x))).bind
    (fun _ => .pure (fun _ hc => hc))

end Runs

inductive Fed {ε : Type} [Engine ε] (s : Session ε) : Environment ε → Prop
  | fresh : Fed s s.environment
  | run {env env' : Environment ε} {input : Bytes} {r : Except IngestFault Nat} (h : Fed s env)
      (hrun : (run s.catalog input).run env = (r, env')) (hr : ∀ x, r ≠ .error (.storage x)) :
      Fed s env'

structure Takes {ε : Type} [Engine ε] [ScopeViews ε] (s : Session ε) (ps : List Panel)
    (env : Environment ε) (text : List Char) (r : Except IngestFault Nat)
    (env' : Environment ε) : Prop where
  fresh : s.Fresh ps
  fed : Fed s env
  run : (run s.catalog (Text.Utf8.encode (.ofList text))).run env = (r, env')
  stored : ∀ x, r ≠ .error (.storage x)

section Takes

variable {ε : Type} [Engine ε] [IsolatedEngine ε] {s : Session ε} {ps : List Panel}
  {env env' : Environment ε} {text : List Char} {r : Except IngestFault Nat}

theorem Fed.grown (h : Fed s env) (hs : Sound s.environment.engine)
    (hfresh : Grown s.catalog (Engine.committed s.environment.engine)) :
    Sound env.engine ∧ Grown s.catalog (Engine.committed env.engine) := by
  induction h with
  | fresh => exact ⟨hs, hfresh⟩
  | @run env env' input r _ hrun hr ih =>
      obtain ⟨_, _, hrun', hs', hres⟩ := leads_run_grown input env ih.1 ih.2
      obtain ⟨rfl, rfl⟩ := Prod.mk.inj (hrun.symm.trans hrun')
      refine ⟨hs', ?_⟩
      cases r with
      | ok n => exact hres
      | error x => exact hres (fun y hy => hr y (congrArg Except.error hy))

theorem Takes.grown (h : Takes s ps env text r env') : s.catalog = .ofPanels ps ∧
    Keeping s.catalog (Tally.uniform []).Of (Engine.committed s.environment.engine) ∧
    Sound env.engine ∧ Grown s.catalog (Engine.committed env.engine) := by
  obtain ⟨_, hs, hempty, hstart⟩ := h.fresh
  obtain ⟨hcat, hs', hkeeping⟩ := keeping_start hs hempty hstart
  exact ⟨hcat, hkeeping, h.fed.grown hs' ⟨[], hkeeping⟩⟩

theorem Takes.shows (h : Takes s ps env text r env')
    (hread : ∀ l ∈ Text.textLines text, Readable l) {rs : List LogRecord}
    (hrs : Keeping s.catalog (Tally.uniform rs).Of (Engine.committed env.engine)) :
    r = .ok (recordsOf s.catalog.panels (.ofList text)).length ∧
      ∃ b, (Tally.uniform (rs ++ recordsOf s.catalog.panels (.ofList text))).Of b ∧
        b.Shown s.catalog env' := by
  rw [← String.toList_ofList (l := text)] at hread
  obtain ⟨_, _, hs, _⟩ := h.grown
  obtain ⟨res, env₁, hrun, hs₁, hres⟩ := leads_run hread env hs hrs
  obtain ⟨rfl, rfl⟩ := Prod.mk.inj (h.run.symm.trans hrun)
  cases r with
  | error x =>
      obtain ⟨y, rfl, -⟩ := hres
      exact absurd rfl (h.stored y)
  | ok n =>
      obtain ⟨rfl, hstocked, b, hb, hT⟩ := hres
      rw [Tally.foldl_add_uniform] at hT
      exact ⟨rfl, b, hT, hb.shown hs₁ hstocked.ready⟩

end Takes

theorem recordsOf_perm {ls ls' : List (List Char)} (hperm : ls.Perm ls')
    (hline : ∀ l ∈ ls, '\n' ∉ l) (ps : List Panel) :
    (recordsOf ps (.ofList (Text.terminated ls))).Perm
      (recordsOf ps (.ofList (Text.terminated ls'))) := by
  rw [recordsOf, recordsOf, String.toList_ofList, String.toList_ofList,
    Text.textLines_terminated hline,
    Text.textLines_terminated (fun l hl => hline l (hperm.mem_iff.2 hl))]
  exact ((hperm.map _).filterMap _).filter _

theorem renamed_of_perm {ε ε' : Type} [Engine ε] [IsolatedEngine ε] [Engine ε'] [IsolatedEngine ε']
    {s : Session ε} {s' : Session ε'} {ps ps' : List Panel} {env env₁ : Environment ε}
    {env' env₁' : Environment ε'} {r r' : Except IngestFault Nat} {ls ls' : List (List Char)}
    (h : Takes s ps env (Text.terminated ls) r env₁)
    (h' : Takes s' ps' env' (Text.terminated ls') r' env₁') (hps : ∀ p, p ∈ ps ↔ p ∈ ps')
    (hstate : env = s.environment ∧ env' = s'.environment ∨
      Engine.committed env.engine = Engine.committed env'.engine)
    (hperm : ls.Perm ls') (hlength : ls.length ≤ wordMax) (hline : ∀ l ∈ ls, '\n' ∉ l)
    (hread : ∀ l ∈ ls, Readable (Text.dropReturn l)) :
    ∃ n b b', r = .ok n ∧ r' = .ok n ∧ n ≤ wordMax ∧ Books.Shown b s.catalog env₁ ∧
      Books.Shown b' s'.catalog env₁' ∧ b.Renamed b' := by
  obtain ⟨hcat, hfresh, _, hgrown⟩ := h.grown
  obtain ⟨hcat', hfresh', _, _⟩ := h'.grown
  have hsame : s'.catalog = s.catalog := by rw [hcat, hcat', Catalog.ofPanels_congr hps]
  obtain ⟨rs, hrs, hrs'⟩ : ∃ rs,
      Keeping s.catalog (Tally.uniform rs).Of (Engine.committed env.engine) ∧
      Keeping s'.catalog (Tally.uniform rs).Of (Engine.committed env'.engine) := by
    rcases hstate with ⟨rfl, rfl⟩ | hstate
    · exact ⟨[], hfresh, hfresh'⟩
    · obtain ⟨rs, hrs⟩ := hgrown
      refine ⟨rs, hrs, ?_⟩
      rw [hsame, ← hstate]
      exact hrs
  have hline' : ∀ l ∈ ls', '\n' ∉ l := fun l hl => hline l (hperm.mem_iff.2 hl)
  have hread₁ : ∀ l ∈ Text.textLines (Text.terminated ls), Readable l := by
    rw [Text.textLines_terminated hline]
    exact List.forall_mem_map.2 hread
  have hread₁' : ∀ l ∈ Text.textLines (Text.terminated ls'), Readable l := by
    rw [Text.textLines_terminated hline']
    exact List.forall_mem_map.2 (fun l hl => hread l (hperm.mem_iff.2 hl))
  obtain ⟨hr, b, hT, hb⟩ := h.shows hread₁ hrs
  obtain ⟨hr', b', hT', hb'⟩ := h'.shows hread₁' hrs'
  have hrecords := recordsOf_perm hperm hline s.catalog.panels
  rw [hsame] at hr' hT'
  have hcount : (recordsOf s.catalog.panels (.ofList (Text.terminated ls))).length ≤ wordMax := by
    refine (length_recordsOf_le _ _).trans (le_trans ?_ hlength)
    rw [String.toList_ofList, Text.textLines_terminated hline, List.length_map]
  refine ⟨_, b, b', hr, ?_, hcount, hb, hb', hT.renamed hT' (hrecords.append_left rs)⟩
  rw [hr', hrecords.length_eq]

theorem fresh_volatile {o : Opening} {s : Session Volatile} (h : o.volatile = .ok s) :
    s.Fresh o.panels := ⟨_, trivial, rfl, h⟩

theorem fresh_start {δ : Type} [Database δ] [LawfulDatabase δ] {d : δ}
    (hd : Database.content d = .empty) {o : Opening} {s : Session (DatabaseEngine δ)}
    (h : o.start d = .ok s) : s.Fresh o.panels :=
  ⟨_, fun hn => sound_opened o.settings d hn, hd, h⟩

def twoHosts : List (List Char) :=
  ["HOSTS\ta\t1", " ", "hosts\tb\r"].map String.toList

theorem renamed_of_perm_twoHosts :
    ∃ (s : Session Volatile) (s' : Session (DatabaseEngine TableFile)) (env : Environment Volatile)
      (env' : Environment (DatabaseEngine TableFile)),
      Takes s [.hosts] s.environment (Text.terminated twoHosts) (.ok 2) env ∧
      Takes s' [.hosts] s'.environment (Text.terminated twoHosts.reverse) (.ok 2) env' ∧
      (∀ l ∈ twoHosts, '\n' ∉ l) ∧ (∀ l ∈ twoHosts, Readable (Text.dropReturn l)) ∧
      ((s.catalog.findKey .hosts "b").run env).1.toOption = some (some 2) ∧
      ((s'.catalog.findKey .hosts "b").run env').1.toOption = some (some 1) ∧
      ∃ b b', Books.Shown b s.catalog env ∧ Books.Shown b' s'.catalog env' ∧ b.Renamed b' := by
  have hv : hostsOnly.volatile.toOption.map (fun s =>
      let r := (run s.catalog (Text.Utf8.encode (.ofList (Text.terminated twoHosts)))).run
        s.environment
      (r.1.toOption, ((s.catalog.findKey .hosts "b").run r.2).1.toOption)) =
        some (some 2, some (some 2)) := by decide +kernel
  have hd : (hostsOnly.start ({} : TableFile)).toOption.map (fun s =>
      let r := (run s.catalog
        (Text.Utf8.encode (.ofList (Text.terminated twoHosts.reverse)))).run s.environment
      (r.1.toOption, ((s.catalog.findKey .hosts "b").run r.2).1.toOption)) =
        some (some 2, some (some 1)) := by decide +kernel
  obtain ⟨s, hs, hrun⟩ := Option.map_eq_some_iff.1 hv
  obtain ⟨s', hs', hrun'⟩ := Option.map_eq_some_iff.1 hd
  obtain ⟨hr, hfind⟩ := Prod.mk.inj hrun
  obtain ⟨hr', hfind'⟩ := Prod.mk.inj hrun'
  have htakes : Takes s [.hosts] s.environment (Text.terminated twoHosts) (.ok 2) _ :=
    ⟨fresh_volatile (eq_ok_of_toOption hs), .fresh, Prod.ext (eq_ok_of_toOption hr) rfl,
      fun _ he => nomatch he⟩
  have htakes' : Takes s' [.hosts] s'.environment (Text.terminated twoHosts.reverse) (.ok 2) _ :=
    ⟨fresh_start rfl (eq_ok_of_toOption hs'), .fresh, Prod.ext (eq_ok_of_toOption hr') rfl,
      fun _ he => nomatch he⟩
  have hline : ∀ l ∈ twoHosts, '\n' ∉ l := by decide +kernel
  have hread : ∀ l ∈ twoHosts, Readable (Text.dropReturn l) := by decide +kernel
  obtain ⟨_, b, b', _, _, _, hb, hb', hrenamed⟩ := renamed_of_perm htakes htakes'
    (fun _ => Iff.rfl) (.inl ⟨rfl, rfl⟩) (List.reverse_perm twoHosts).symm (by decide) hline hread
  exact ⟨s, s', _, _, htakes, htakes', hline, hread, hfind, hfind', b, b', hb, hb', hrenamed⟩

end Ingest

end TrafficStore
