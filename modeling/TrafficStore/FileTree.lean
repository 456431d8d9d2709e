import TrafficStore.Engine.Durable
import TrafficStore.Text.Lines

namespace TrafficStore

inductive FileTree where
  | file (bytes : Bytes)
  | directory (entries : List (String × FileTree))

namespace FileTree

def kind : FileTree → NodeKind
  | file _ => .file
  | directory _ => .directory

def child (name : String) : List (String × FileTree) → Option FileTree
  | [] => none
  | e :: es => if e.1 = name then some e.2 else child name es

def find? (t : FileTree) : List String → Option FileTree
  | [] => some t
  | n :: ns =>
      match t with
      | file _ => none
      | directory es => (child n es).bind (fun u => u.find? ns)

def setEntry (name : String) (u : FileTree) :
    List (String × FileTree) → List (String × FileTree)
  | [] => [(name, u)]
  | e :: es => if e.1 = name then (name, u) :: es else e :: setEntry name u es

def set (u : FileTree) (t : FileTree) : List String → FileTree
  | [] => u
  | n :: ns =>
      match t with
      | file bs => file bs
      | directory es =>
          match child n es with
          | some v => directory (setEntry n (set u v ns) es)
          | none => if ns = [] then directory (setEntry n u es) else directory es

def nameLimit : Nat := 255

def pathLimit : Nat := 4096

def step (t : FileTree) (names : List String) (part : String) : Except PathFault (List String) :=
  match t.find? names.reverse with
  | some (directory es) =>
      if part = "" ∨ part = "." then .ok names
      else if part = ".." then .ok names.tail
      else if nameLimit < part.utf8ByteSize then .error .nameTooLong
      else if (child part es).isSome then .ok (part :: names)
      else .error .missing
  | _ => .error .notDirectory

def startOf (here : List String) (path : String) : List String :=
  if path.toList.head? = some '/' then [] else here.reverse

def locate (t : FileTree) (here : List String) (path : String) : Except PathFault (List String) :=
  if Char.ofNat 0 ∈ path.toList then .error .nul
  else if path = "" then .error .missing
  else if pathLimit ≤ path.utf8ByteSize then .error .nameTooLong
  else
    let parts := (Text.fields '/' path.toList).map String.ofList
    (parts.foldlM (step t) (startOf here path)).map List.reverse

def probe (t : FileTree) (here : List String) (path : String) : Except PathFault NodeKind := do
  let names ← t.locate here path
  match t.find? names with
  | some u => .ok u.kind
  | none => .error .missing

def stored (t : FileTree) (here : List String) (path : String) : Stored :=
  match t.locate here path with
  | .ok names =>
      match t.find? names with
      | some (file bs) => .file bs
      | some (directory _) => .directory
      | none => .absent
  | .error .missing => .absent
  | .error f => .unreachable f

end FileTree

end TrafficStore
