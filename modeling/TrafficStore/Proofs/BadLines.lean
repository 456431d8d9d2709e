import TrafficStore.Ingest
import TrafficStore.Proofs.Atomicity
import TrafficStore.Proofs.Splitting
import TrafficStore.Proofs.Utf8

namespace TrafficStore

open Ledger

def Panel.Named (p : Panel) (typed : List Char) : Prop :=
  Text.fold p.name.toList = Text.fold (Text.trim typed)

theorem Panel.ofText?_eq_none_iff {typed : List Char} :
    ofText? (.ofList typed) = none ↔ ∀ p : Panel, ¬ p.Named typed := by
  simp only [ofText?, List.find?_eq_none, mem_all, forall_const, decide_eq_true_eq,
    String.toList_ofList, Named]

theorem Panel.named_of_ofText? {typed : List Char} {p : Panel}
    (h : ofText? (.ofList typed) = some p) : p.Named typed := by
  have hp := List.find?_some h
  rwa [decide_eq_true_eq, String.toList_ofList] at hp

namespace LogRecord

inductive Refused : List (List Char) → RecordFault → Prop where
  | panel {typed : List Char} {rest : List (List Char)} : (∀ p : Panel, ¬ p.Named typed) →
      Refused (typed :: rest) (.unknownPanel (.ofList typed))
  | noKey {typed : List Char} {p : Panel} : p.Named typed → Refused [typed] .missingKey
  | emptyKey {typed : List Char} {rest : List (List Char)} {p : Panel} : p.Named typed →
      Refused (typed :: [] :: rest) .missingKey
  | count {typed key raw : List Char} {rest : List (List Char)} {p : Panel}
      {fault : Text.NumeralFault} : p.Named typed → key ≠ [] →
      Text.numeral UInt64.size (Text.trim raw) = .error fault →
      Refused (typed :: key :: raw :: rest) (.badCount (.ofList raw) fault)

variable {fs : List (List Char)} {f : RecordFault}

theorem Refused.parseFields (h : Refused fs f) : parseFields fs = .error f := by
  have hsome : ∀ {typed : List Char} {p : Panel}, p.Named typed →
      ∃ q, Panel.ofText? (.ofList typed) = some q := fun {typed p} hp =>
    Option.ne_none_iff_exists'.1 (fun hnone => Panel.ofText?_eq_none_iff.1 hnone p hp)
  cases h with
  | panel hnone => simp only [LogRecord.parseFields, Panel.ofText?_eq_none_iff.2 hnone]
  | noKey hp | emptyKey hp =>
      obtain ⟨q, hq⟩ := hsome hp
      simp only [LogRecord.parseFields, hq]
  | @count typed key raw rest p fault hp hkey hraw =>
      obtain ⟨q, hq⟩ := hsome hp
      obtain ⟨c, cs, rfl⟩ := List.exists_cons_of_ne_nil hkey
      simp only [LogRecord.parseFields, hq, parseCount, hraw]
      rfl

theorem refused_of_parseFields (hfs : fs ≠ []) (h : LogRecord.parseFields fs = .error f) :
    Refused fs f := by
  obtain ⟨typed, rest, rfl⟩ := List.exists_cons_of_ne_nil hfs
  cases hq : Panel.ofText? (.ofList typed) with
  | none =>
      simp only [LogRecord.parseFields, hq] at h
      cases h
      exact .panel (Panel.ofText?_eq_none_iff.1 hq)
  | some p =>
      have hp := Panel.named_of_ofText? hq
      simp only [LogRecord.parseFields, hq] at h
      rcases rest with _ | ⟨_ | ⟨c, cs⟩, _ | ⟨raw, rest⟩⟩
      · cases h
        exact .noKey hp
      · cases h
        exact .emptyKey hp
      · cases h
        exact .emptyKey hp
      · cases h
      · simp only [parseCount] at h
        cases hraw : Text.numeral UInt64.size (Text.trim raw) with
        | ok n => rw [hraw] at h; cases h
        | error fault =>
            rw [hraw] at h
            cases h
            exact .count hp (List.cons_ne_nil c cs) hraw

theorem parse_eq_error_iff {s : String} :
    parse s = .error f ↔ Refused (Text.fields '\t' s.toList) f :=
  ⟨refused_of_parseFields (Text.fields_ne_nil _ _), Refused.parseFields⟩

end LogRecord

namespace Ingest

inductive LineFault where
  | unreadable
  | record (fault : RecordFault)
  deriving DecidableEq, Repr

def LineFault.onLine (number : Nat) : LineFault → IngestFault
  | unreadable => .unreadable
  | record fault => .badLine number fault

inductive Spoils : Bytes → LineFault → Prop where
  | unreadable {l : Bytes} : (∀ s, Text.Utf8.encode s ≠ l) → Spoils l .unreadable
  | record {s : String} {fault : RecordFault} : Text.trim s.toList ≠ [] →
      LogRecord.Refused (Text.fields '\t' s.toList) fault →
      Spoils (Text.Utf8.encode s) (.record fault)

def Good (l : Bytes) : Prop := ∀ f, ¬ Spoils l f

def checkLine (l : Bytes) : Except LineFault (Option LogRecord) :=
  match Text.Utf8.decode l with
  | .error _ => .error .unreadable
  | .ok s =>
      if Text.trim s.toList = [] then .ok none
      else ((LogRecord.parse s).map some).mapError .record

theorem readLine_eq (number : Nat) (l : Bytes) :
    readLine number l = (checkLine l).mapError (LineFault.onLine number) := by
  rw [readLine, checkLine]
  cases Text.Utf8.decode l with
  | error x => rfl
  | ok s =>
      by_cases hblank : Text.trim s.toList = []
      · simp only [if_pos hblank]
        rfl
      · simp only [if_neg hblank]
        cases LogRecord.parse s <;> rfl

theorem checkLine_eq_error_iff {l : Bytes} {f : LineFault} :
    checkLine l = .error f ↔ Spoils l f := by
  constructor
  · intro h
    rw [checkLine] at h
    cases hs : Text.Utf8.decode l with
    | error x =>
        rw [hs] at h
        cases h
        refine .unreadable (fun s he => ?_)
        rw [Text.Utf8.decode_eq_ok_iff.2 he] at hs
        cases hs
    | ok s =>
        rw [hs] at h
        obtain rfl := Text.Utf8.encode_of_decode hs
        by_cases hblank : Text.trim s.toList = []
        · simp only [if_pos hblank] at h
          cases h
        · simp only [if_neg hblank] at h
          cases hparse : LogRecord.parse s with
          | ok r => rw [hparse] at h; cases h
          | error fault =>
              rw [hparse] at h
              cases h
              exact .record hblank (LogRecord.parse_eq_error_iff.1 hparse)
  · intro h
    cases h with
    | unreadable hnone =>
        rw [checkLine]
        cases hs : Text.Utf8.decode l with
        | error x => rfl
        | ok s => exact absurd (Text.Utf8.encode_of_decode hs) (hnone s)
    | record hblank hrefused =>
        simp only [checkLine, Text.Utf8.decode_encode, if_neg hblank,
          LogRecord.parse_eq_error_iff.2 hrefused]
        rfl

theorem Good.checkLine {l : Bytes} (h : Good l) : ∃ r, checkLine l = .ok r := by
  cases hl : Ingest.checkLine l with
  | error f => exact absurd (checkLine_eq_error_iff.1 hl) (h f)
  | ok r => exact ⟨r, rfl⟩

theorem Good.readLine {l : Bytes} (h : Good l) :
    ∃ r, ∀ number, readLine number l = .ok r := by
  obtain ⟨r, hr⟩ := h.checkLine
  exact ⟨r, fun number => by rw [readLine_eq, hr]; rfl⟩

theorem Spoils.readLine {l : Bytes} {f : LineFault} (h : Spoils l f) (number : Nat) :
    readLine number l = .error (f.onLine number) := by
  rw [readLine_eq, checkLine_eq_error_iff.2 h]
  rfl

def InStorage (x : IngestFault) : Prop := ∃ e, x = .storage e

theorem failsOnly_mapFault {ε α : Type} (m : StoreM ε α) :
    (m.mapFault IngestFault.storage).FailsOnly InStorage := by
  intro env x hx
  rw [Work.run_mapFault] at hx
  cases hr : (m.run env).1 with
  | ok a => rw [hr] at hx; cases hx
  | error e =>
      rw [hr] at hx
      cases hx
      exact ⟨e, rfl⟩

section Lines

variable {ε : Type} [Engine ε] (cat : Catalog)

theorem lines_append (number : Nat) (xs ys : List Bytes) :
    (lines cat number (xs ++ ys) : IngestM ε Nat) = (do
      let n ← lines cat number xs
      let m ← lines cat (number + xs.length) ys
      return n + m) := by
  induction xs generalizing number with
  | nil =>
      rw [List.nil_append, lines, pure_bind]
      simp only [List.length_nil, Nat.add_zero, Nat.zero_add, bind_pure]
  | cons l ls ih =>
      have hnumber : number + 1 + ls.length = number + (l :: ls).length := by
        rw [List.length_cons, Nat.add_right_comm, Nat.add_assoc]
      rw [List.cons_append, lines, lines, ih, hnumber, bind_assoc]
      congr 1
      funext r
      cases r with
      | none => rfl
      | some r =>
          simp only [bind_assoc, pure_bind]
          congr 1
          funext counted
          cases counted with
          | false => rfl
          | true => simp only [if_true, Nat.add_right_comm]

theorem lines_spoiled {l : Bytes} {f : LineFault} (h : Spoils l f) (number : Nat)
    (ls : List Bytes) :
    (lines cat number (l :: ls) : IngestM ε Nat) = Work.fail (f.onLine number) := by
  rw [lines, h.readLine]
  rfl

theorem lines_renumber {ls : List Bytes} (h : ∀ l ∈ ls, Good l) (number number' : Nat) :
    (lines cat number ls : IngestM ε Nat) = lines cat number' ls := by
  induction ls generalizing number number' with
  | nil => rfl
  | cons l ls ih =>
      obtain ⟨r, hr⟩ := (h l List.mem_cons_self).readLine
      have hrest := ih (fun l hl => h l (List.mem_cons_of_mem _ hl))
      rw [lines, lines, hr, hr, hrest (number + 1) (number' + 1)]

theorem failsOnly_lines {ls : List Bytes} (h : ∀ l ∈ ls, Good l) (number : Nat) :
    (lines cat number ls : IngestM ε Nat).FailsOnly InStorage := by
  induction ls generalizing number with
  | nil => exact .pure 0
  | cons l ls ih =>
      obtain ⟨r, hr⟩ := (h l List.mem_cons_self).readLine
      have hrest := ih (fun l hl => h l (List.mem_cons_of_mem _ hl)) (number + 1)
      rw [lines, hr]
      refine .bind (.ofExcept (fun x hx => nomatch hx)) (fun r => ?_)
      cases r with
      | none => exact hrest
      | some r =>
          exact .bind (failsOnly_mapFault _) (fun _ => hrest.bind (fun _ => .pure _))

theorem failsOnly_run {input : Bytes} (h : ∀ l ∈ Text.lines input, Good l) :
    (run cat input : IngestM ε Nat).FailsOnly InStorage :=
  (failsOnly_lines cat h 1).bind (fun _ => .bind (failsOnly_mapFault _) (fun _ => .pure _))

end Lines

structure FirstBad (input a : Bytes) (f : LineFault) : Prop where
  before : a <+: input
  ended : Text.Ended a
  good : ∀ l ∈ Text.lines a, Good l
  first : ∃ l rest, Text.lines input = Text.lines a ++ l :: rest ∧ Spoils l f

theorem exists_first_spoiled {ls : List Bytes} (h : ∃ l ∈ ls, ∃ f, Spoils l f) :
    ∃ pre l post f, ls = pre ++ l :: post ∧ (∀ l ∈ pre, Good l) ∧ Spoils l f := by
  induction ls with
  | nil =>
      obtain ⟨l, hl, -⟩ := h
      cases hl
  | cons x ls ih =>
      by_cases hx : ∃ f, Spoils x f
      · obtain ⟨f, hf⟩ := hx
        exact ⟨[], x, ls, f, rfl, List.forall_mem_nil _, hf⟩
      · obtain ⟨l, hl, hbad⟩ := h
        rcases List.mem_cons.1 hl with rfl | hl
        · exact absurd hbad hx
        · obtain ⟨pre, l, post, f, rfl, hpre, hf⟩ := ih ⟨l, hl, hbad⟩
          exact ⟨x :: pre, l, post, f, rfl,
            List.forall_mem_cons.2 ⟨fun f hf => hx ⟨f, hf⟩, hpre⟩, hf⟩

theorem exists_firstBad {input : Bytes} (h : ∃ l ∈ Text.lines input, ∃ f, Spoils l f) :
    ∃ a f, FirstBad input a f := by
  obtain ⟨pre, l, post, f, hlines, hpre, hf⟩ := exists_first_spoiled h
  obtain ⟨a, b, rfl, ha, rfl, -⟩ := Text.lines_eq_append hlines
  exact ⟨a, f, List.prefix_append a b, ha, hpre, l, post, hlines, hf⟩

structure Stops (ε : Type) [Engine ε] : Prop where
  content : ∀ cat {input a : Bytes} {f}, FirstBad input a f → ∀ env : Environment ε,
    Engine.committed ((run cat input).run env).2.engine =
      Engine.committed ((run cat a).run env).2.engine
  result : ∀ cat {input a : Bytes} {f}, FirstBad input a f → ∀ env : Environment ε,
    (∃ e, ((lines cat 1 (Text.lines a)).run env).1 = .error (.storage e) ∧
      ((run cat input).run env).1 = .error (.storage e)) ∨
    ((run cat input).run env).1 = .error (f.onLine ((Text.lines a).length + 1))
  reported : ∀ cat {input a : Bytes} {f} {n : Nat}, FirstBad input a f →
    ∀ env : Environment ε, ((run cat a).run env).1 = .ok n →
      ((run cat input).run env).1 = .error (f.onLine ((Text.lines a).length + 1))
  passes : ∀ cat {input : Bytes}, (∀ l ∈ Text.lines input, Good l) → ∀ env : Environment ε,
    (∃ e, ((run cat input).run env).1 = .error (.storage e)) ∨
      ∃ n, ((run cat input).run env).1 = .ok n

section Runs

variable {ε : Type} [Engine ε] {input a : Bytes} {f : LineFault}

theorem FirstBad.run_eq (h : FirstBad input a f) (cat : Catalog) :
    (run cat input : IngestM ε Nat) = (do
      let _ ← lines cat 1 (Text.lines a)
      Work.fail (f.onLine ((Text.lines a).length + 1))) := by
  obtain ⟨l, rest, hlines, hf⟩ := h.first
  rw [run, hlines, lines_append, lines_spoiled cat hf, bind_assoc, Nat.add_comm 1]
  rfl

theorem stops (ε : Type) [Engine ε] [AtomicEngine ε] : Stops ε where
  content cat input a f h env := by
    rw [h.run_eq, run, Work.run_bind, Work.run_bind]
    cases (lines cat 1 (Text.lines a)).run env with
    | mk r env' =>
        cases r with
        | error x => rfl
        | ok n =>
            refine (congrArg Prod.fst (RollsBack.looks_sync true env')).symm.trans ?_
            simp only [Work.run_bind, Work.run_mapFault]
            rcases (Environment.sync true).run env' with ⟨x | u, env''⟩ <;> rfl
  result cat input a f h env := by
    have hgood := failsOnly_lines (ε := ε) cat h.good 1 env
    rw [h.run_eq, Work.run_bind]
    cases hrun : (lines cat 1 (Text.lines a)).run env with
    | mk r env' =>
        rw [hrun] at hgood
        cases r with
        | error x =>
            obtain ⟨e, rfl⟩ := hgood x rfl
            exact .inl ⟨e, rfl, rfl⟩
        | ok n => exact .inr rfl
  reported cat input a f n h env hn := by
    rw [run, Work.run_bind] at hn
    rw [h.run_eq, Work.run_bind]
    cases hrun : (lines cat 1 (Text.lines a)).run env with
    | mk r env' =>
        rw [hrun] at hn
        cases r with
        | error x => cases hn
        | ok m => rfl
  passes cat input h env := by
    have hgood := failsOnly_run (ε := ε) cat h env
    cases hrun : ((run cat input).run env).1 with
    | error x =>
        obtain ⟨e, rfl⟩ := hgood x hrun
        exact .inl ⟨e, rfl⟩
    | ok n => exact .inr ⟨n, rfl⟩

end Runs

end Ingest

end TrafficStore
