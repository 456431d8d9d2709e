import TrafficStore.Format
import TrafficStore.TableId

namespace TrafficStore

inductive ValueKind where
  | integer
  | text
  deriving DecidableEq, Repr

inductive SortOrder where
  | numericDescending
  | lexicographicAscending
  deriving DecidableEq, Repr

inductive Value where
  | int (n : Int32)
  | text (s : String)
  deriving DecidableEq, Repr

structure Item where
  key : Int32
  value : Value
  deriving DecidableEq, Repr

structure Dump where
  panel : Panel
  kind : ValueKind
  items : List Item
  deriving DecidableEq, Repr

structure DumpPolicy where
  metric : Metric
  kind : ValueKind
  order : SortOrder
  deriving DecidableEq, Repr

namespace Panel

def dumpPolicy : Panel → DumpPolicy
  | visitors => ⟨.dataMap, .text, .lexicographicAscending⟩
  | _ => ⟨.hits, .integer, .numericDescending⟩

end Panel

namespace SortOrder

def precedes : SortOrder → Value → Value → Bool
  | numericDescending, .int x, .int y => y < x
  | lexicographicAscending, .text x, .text y => Text.Utf8.encode x < Text.Utf8.encode y
  | _, _, _ => false

end SortOrder

namespace Dump

/-- Puts an item into a list sorted backwards, in front of the first that it need not precede. -/
def insertBack (o : SortOrder) (x : Item) : List Item → List Item
  | [] => [x]
  | y :: ys => if o.precedes x.value y.value then y :: insertBack o x ys else x :: y :: ys

def sortItems (o : SortOrder) (xs : List Item) : List Item :=
  (xs.foldl (fun sorted x => insertBack o x sorted) []).reverse

theorem insertBack_perm (o : SortOrder) (x : Item) (ys : List Item) :
    (insertBack o x ys).Perm (x :: ys) := by
  induction ys with
  | nil => exact .refl _
  | cons y ys ih =>
      simp only [insertBack]
      split
      · exact (ih.cons y).trans (.swap x y ys)
      · exact .refl _

theorem foldl_insertBack_perm (o : SortOrder) (xs : List Item) :
    ∀ ys, (xs.foldl (fun sorted x => insertBack o x sorted) ys).Perm (xs ++ ys) := by
  induction xs with
  | nil => intro ys; exact .refl _
  | cons x xs ih =>
      intro ys
      exact (ih _).trans (((insertBack_perm o x ys).append_left xs).trans List.perm_middle)

theorem sortItems_perm (o : SortOrder) (xs : List Item) : (sortItems o xs).Perm xs := by
  have h := foldl_insertBack_perm o xs []
  rw [List.append_nil] at h
  exact (List.reverse_perm _).trans h

def sort (d : Dump) (o : SortOrder) : Dump := { d with items := sortItems o d.items }

def decodeValue : ValueKind → Bytes → Except FormatFault Value
  | .integer, bs => (Format.int.decode bs).map .int
  | .text, bs => (Format.text.decode bs).map .text

def decodeItem (kind : ValueKind) (r : Bytes × Bytes) : Except FormatFault Item := do
  let key ← Format.int.decode r.1
  let value ← decodeValue kind r.2
  return ⟨key, value⟩

def decodeItems (kind : ValueKind) (rs : List (Bytes × Bytes)) : Except FormatFault (List Item) :=
  rs.mapM (decodeItem kind)

theorem decodeItems_cons (kind : ValueKind) (r : Bytes × Bytes) (rs : List (Bytes × Bytes)) :
    decodeItems kind (r :: rs) = (decodeItem kind r).bind (fun x =>
      (decodeItems kind rs).map (fun xs => x :: xs)) := by
  rw [decodeItems, List.mapM_cons]
  cases decodeItem kind r with
  | error f => rfl
  | ok x => rw [decodeItems]; cases rs.mapM (decodeItem kind) <;> rfl

end Dump

end TrafficStore
