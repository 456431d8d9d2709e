import TrafficStore.TableId

namespace TrafficStore

theorem Metric.find?_tableName (m : Metric) :
    Metric.all.find? (fun n => n.tableName = m.tableName) = some m := by
  cases m <;> rfl

theorem Metric.tableName_injective {m n : Metric} (h : m.tableName = n.tableName) : m = n := by
  have hm := m.find?_tableName
  rw [h, n.find?_tableName] at hm
  exact (Option.some.inj hm).symm

theorem Metric.hyphen_not_mem (m : Metric) : '-' ∉ m.tableName.toList := by
  cases m <;> decide

theorem SharedTable.find?_tableName (t : SharedTable) :
    SharedTable.all.find? (fun u => u.tableName = t.tableName) = some t := by
  cases t <;> rfl

theorem SharedTable.tableName_injective {t u : SharedTable} (h : t.tableName = u.tableName) :
    t = u := by
  have ht := t.find?_tableName
  rw [h, u.find?_tableName] at ht
  exact (Option.some.inj ht).symm

theorem SharedTable.hyphen_not_mem (t : SharedTable) : '-' ∉ t.tableName.toList := by
  cases t <;> decide

def Panel.mark (p : Panel) : List Char := 'm' :: (toString p.ordinal).toList

theorem Panel.find?_mark (p : Panel) : Panel.all.find? (fun q => q.mark = p.mark) = some p := by
  cases p <;> decide

theorem Panel.mark_injective {p q : Panel} (h : p.mark = q.mark) : p = q := by
  have hp := p.find?_mark
  rw [h, q.find?_mark] at hp
  exact (Option.some.inj hp).symm

theorem append_cons_inj {α : Type} {a : α} {xs ys us vs : List α} (hx : a ∉ xs) (hu : a ∉ us)
    (h : xs ++ a :: ys = us ++ a :: vs) : xs = us ∧ ys = vs := by
  induction xs generalizing us with
  | nil =>
      cases us with
      | nil => exact ⟨rfl, (List.cons.inj h).2⟩
      | cons u us => exact absurd ((List.cons.inj h).1 ▸ List.mem_cons_self) hu
  | cons x xs ih =>
      cases us with
      | nil => exact absurd ((List.cons.inj h).1 ▸ List.mem_cons_self) hx
      | cons u us =>
          obtain ⟨he, ht⟩ := List.cons.inj h
          obtain ⟨hxs, hys⟩ := ih (fun h => hx (List.mem_cons_of_mem x h))
            (fun h => hu (List.mem_cons_of_mem u h)) ht
          exact ⟨by rw [he, hxs], hys⟩

namespace TableId

theorem toList_name_panel (p : Panel) (m : Metric) :
    (panel p m).name.toList = m.tableName.toList ++ '-' :: p.mark := by
  simp only [name, Panel.mark, String.toList_append, List.append_assoc]
  rfl

theorem name_injective : ∀ {t u : TableId}, t.name = u.name → t = u
  | shared t, shared u, h => congrArg shared (SharedTable.tableName_injective h)
  | panel p m, panel q n, h => by
      have hl := congrArg String.toList h
      rw [toList_name_panel, toList_name_panel] at hl
      obtain ⟨hm, hp⟩ := append_cons_inj m.hyphen_not_mem n.hyphen_not_mem hl
      rw [Metric.tableName_injective (String.toList_inj.1 hm), Panel.mark_injective hp]
  | shared t, panel q n, h => by
      have hmem : '-' ∈ (shared t).name.toList := by rw [h, toList_name_panel]; simp
      exact absurd hmem t.hyphen_not_mem
  | panel p m, shared u, h => by
      have hmem : '-' ∈ (shared u).name.toList := by rw [← h, toList_name_panel]; simp
      exact absurd hmem u.hyphen_not_mem

theorem name_ne_empty (t : TableId) : t.name ≠ "" := by
  cases t with
  | shared t => cases t <;> decide
  | panel p m =>
      intro h
      have hl := congrArg String.toList h
      rw [toList_name_panel] at hl
      simp at hl

end TableId

end TrafficStore
