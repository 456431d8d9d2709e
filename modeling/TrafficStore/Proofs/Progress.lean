import TrafficStore.Progress

namespace TrafficStore

namespace Ingest

variable {ε : Type} [Engine ε] {c : Catalog} {r : LogRecord} {id : Int32}

def parts (c : Catalog) (r : LogRecord) (id : Int32) : List Part → StoreM ε Unit
  | [] => return ()
  | part :: left => do
      let _ ← (part.call r id).run c
      parts c r id left

theorem record_eq (c : Catalog) (r : LogRecord) :
    (record c r : StoreM ε Bool) = (do
      match ← c.assignKey r.panel r.key with
      | none => return false
      | some id =>
          parts c r id Part.all
          return true) := by
  rw [record]
  congr 1
  funext id
  cases id with
  | none => rfl
  | some id =>
      simp only [Part.all, parts, Part.call, Call.run, bind_map_left, bind_assoc, pure_bind]

def remaining (c : Catalog) (number counted : Nat) (ls : List Bytes) : IngestM ε Nat := do
  let n ← lines c number ls
  (Environment.sync true).mapFault .storage
  return counted + n

theorem run_eq_remaining (c : Catalog) (input : Bytes) :
    (run c input : IngestM ε Nat) = remaining c 1 0 (Text.lines input) := by
  rw [run, remaining]
  simp only [Nat.zero_add]

theorem remaining_cons (c : Catalog) (number counted : Nat) (l : Bytes) (ls : List Bytes) :
    (remaining c number counted (l :: ls) : IngestM ε Nat) = (do
      match ← Work.ofExcept (readLine number l) with
      | none => remaining c (number + 1) counted ls
      | some r =>
          let new ← (record c r).mapFault .storage
          remaining c (number + 1) (if new then counted + 1 else counted) ls) := by
  rw [remaining, lines, bind_assoc]
  congr 1
  funext r
  cases r with
  | none => rfl
  | some r =>
      simp only [bind_assoc, pure_bind, remaining]
      congr 1
      funext new
      cases new with
      | false => rfl
      | true => simp only [if_true, Nat.add_assoc, Nat.add_comm 1]

namespace Place

variable {now now' now'' : Place × Environment ε}

def Comes (c : Catalog) (now now' : Place × Environment ε) : Prop := ∃ n, go c n now = now'

theorem Comes.refl (now : Place × Environment ε) : Comes c now now := ⟨0, rfl⟩

theorem Comes.step (h : Comes c (now.1.step c now.2) now') : Comes c now now' := by
  obtain ⟨n, hn⟩ := h
  exact ⟨n + 1, hn⟩

theorem Comes.trans (h : Comes c now now') (h' : Comes c now' now'') : Comes c now now'' := by
  obtain ⟨n, hn⟩ := h
  induction n generalizing now with
  | zero =>
      cases hn
      exact h'
  | succ n ih => exact .step (ih hn)

def after (mid : Bool) (number counted : Nat) (ls : List Bytes) :
    Except StorageError Bool × Environment ε → Place × Environment ε
  | (.ok new, env) => (between (number + 1) (if new then counted + 1 else counted) ls, env)
  | (.error x, env) => (ended mid (.error (.storage x)), env)

theorem comes_parts (r : LogRecord) (id : Int32) (number counted : Nat) (ls : List Bytes)
    (left : List Part) : ∀ env : Environment ε,
      Comes c (inside r id left number counted ls, env) (after true number counted ls
        ((do parts c r id left; return true : StoreM ε Bool).run env)) := by
  induction left with
  | nil => exact fun env => .step (.refl _)
  | cons part left ih =>
      intro env
      refine .step ?_
      rw [parts, bind_assoc, Work.run_bind, step]
      rcases ((part.call r id).run c).run env with ⟨x | a, env'⟩
      · exact .refl _
      · exact ih env'

theorem comes_record {number : Nat} {l : Bytes} (hl : readLine number l = .ok (some r))
    (counted : Nat) (ls : List Bytes) (env : Environment ε) :
    ∃ mid, Comes c (between number counted (l :: ls), env)
      (after mid number counted ls ((record c r).run env)) := by
  rw [record_eq, Work.run_bind]
  cases hkey : (c.assignKey r.panel r.key).run env with
  | mk id env₁ =>
      rcases id with x | (_ | id)
      · exact ⟨false, .step (by simp only [step, hl, hkey]; exact .refl _)⟩
      · exact ⟨false, .step (by simp only [step, hl, hkey]; exact .refl _)⟩
      · exact ⟨true, .step (by
          simp only [step, hl, hkey]
          exact comes_parts r id number counted ls Part.all env₁)⟩

theorem comes_remaining (ls : List Bytes) : ∀ (number counted : Nat) (env : Environment ε),
    ∃ mid, Comes c (between number counted ls, env)
        (ended mid ((remaining c number counted ls).run env).1,
          ((remaining c number counted ls).run env).2) ∧
      (mid = true → ∃ x, ((remaining c number counted ls).run env).1 = .error (.storage x)) := by
  induction ls with
  | nil =>
      intro number counted env
      refine ⟨false, .step ?_, nofun⟩
      rw [step, remaining]
      simp only [lines, pure_bind, Work.run_bind, Work.run_mapFault]
      rcases (Environment.sync true).run env with ⟨x | a, env'⟩ <;> exact .refl _
  | cons l ls ih =>
      intro number counted env
      rw [remaining_cons]
      simp only [Work.run_bind, Work.run_ofExcept]
      rcases hl : readLine number l with x | (_ | r)
      · exact ⟨false, .step (by simp only [step, hl]; exact .refl _), nofun⟩
      · obtain ⟨mid, hcomes, hmid⟩ := ih (number + 1) counted env
        exact ⟨mid, .step (by simp only [step, hl]; exact hcomes), hmid⟩
      · obtain ⟨mid, hrecord⟩ := comes_record (c := c) hl counted ls env
        simp only [Work.run_bind, Work.run_mapFault]
        rcases hrun : (record c r).run env with ⟨x | new, env₁⟩ <;> rw [hrun] at hrecord
        · exact ⟨mid, hrecord, fun _ => ⟨x, rfl⟩⟩
        · obtain ⟨mid', hcomes, hmid'⟩ :=
            ih (number + 1) (if new then counted + 1 else counted) env₁
          exact ⟨mid', hrecord.trans hcomes, hmid'⟩

theorem comes_run (c : Catalog) (input : Bytes) (env : Environment ε) :
    ∃ mid, Comes c (start input, env)
        (ended mid ((run c input).run env).1, ((run c input).run env).2) ∧
      (mid = true → ∃ x, ((run c input).run env).1 = .error (.storage x)) := by
  rw [run_eq_remaining]
  exact comes_remaining (Text.lines input) 1 0 env

end Place

end Ingest

end TrafficStore
