import TrafficStore.Text.Quoted

namespace TrafficStore

inductive Json where
  | null
  | bool (b : Bool)
  | int (n : Int)
  | decimal (digits : Int) (places : Nat)
  | str (s : String)
  | arr (items : List Json)
  | obj (fields : List (String × Json))

instance : Inhabited Json := ⟨.null⟩

namespace Json

def field? (name : String) : List (String × Json) → Option Json
  | [] => none
  | f :: fs => if f.1 = name then some f.2 else field? name fs

def escapedChar (c : Char) : String :=
  if c = '"' then "\\\""
  else if c = '\\' then "\\\\"
  else if c = '\n' then "\\n"
  else if c = '\r' then "\\r"
  else if c = '\t' then "\\t"
  else if c.toNat = 8 then "\\b"
  else if c.toNat = 12 then "\\f"
  else if c.toNat < 16 then "\\u000" ++ Text.hexadecimal c.toNat
  else if c.toNat < 32 then "\\u00" ++ Text.hexadecimal c.toNat
  else c.toString

def escaped (s : String) : String := "\"" ++ String.join (s.toList.map escapedChar) ++ "\""

def decimalText (digits : Int) (places : Nat) : String :=
  let unit := Nat.pow 10 places
  let whole := digits.natAbs / unit
  let rest := toString (unit + digits.natAbs % unit)
  (if digits < 0 then "-" else "") ++ toString whole ++ "." ++
    (if places = 0 then "0" else (rest.drop 1).toString)

def lineAt (depth : Nat) : String := "\n" ++ String.ofList (List.replicate (2 * depth) ' ')

mutual

def pretty (depth : Nat) : Json → String
  | null => "null"
  | bool b => if b then "true" else "false"
  | int n => toString n
  | decimal d p => decimalText d p
  | str s => escaped s
  | arr [] => "[]"
  | arr (x :: xs) =>
      "[" ++ lineAt (depth + 1) ++ pretty (depth + 1) x ++ prettyItems (depth + 1) xs ++
        lineAt depth ++ "]"
  | obj [] => "\x7b\x7d"
  | obj ((k, x) :: xs) =>
      "\x7b" ++ lineAt (depth + 1) ++ escaped k ++ ": " ++ pretty (depth + 1) x ++
        prettyFields (depth + 1) xs ++ lineAt depth ++ "\x7d"

def prettyItems (depth : Nat) : List Json → String
  | [] => ""
  | x :: xs => "," ++ lineAt depth ++ pretty depth x ++ prettyItems depth xs

def prettyFields (depth : Nat) : List (String × Json) → String
  | [] => ""
  | (k, x) :: xs =>
      "," ++ lineAt depth ++ escaped k ++ ": " ++ pretty depth x ++ prettyFields depth xs

end

mutual

def compact : Json → String
  | null => "null"
  | bool b => if b then "true" else "false"
  | int n => toString n
  | decimal d p => decimalText d p
  | str s => escaped s
  | arr [] => "[]"
  | arr (x :: xs) => "[" ++ compact x ++ compactItems xs ++ "]"
  | obj [] => "\x7b\x7d"
  | obj ((k, x) :: xs) => "\x7b" ++ escaped k ++ ":" ++ compact x ++ compactFields xs ++ "\x7d"

def compactItems : List Json → String
  | [] => ""
  | x :: xs => "," ++ compact x ++ compactItems xs

def compactFields : List (String × Json) → String
  | [] => ""
  | (k, x) :: xs => "," ++ escaped k ++ ":" ++ compact x ++ compactFields xs

end

end Json

end TrafficStore
