namespace TrafficStore.Text

inductive NumeralFault where
  | empty
  | invalidDigit
  | tooLarge
  deriving DecidableEq, Repr

namespace NumeralFault

def message : NumeralFault → String
  | .empty => "cannot parse integer from empty string"
  | .invalidDigit => "invalid digit found in string"
  | .tooLarge => "number too large to fit in target type"

end NumeralFault

def digitsFrom (bound n : Nat) : List Char → Except NumeralFault Nat
  | [] => .ok n
  | c :: cs =>
      if c.isDigit then
        if n * 10 + (c.toNat - 48) < bound then digitsFrom bound (n * 10 + (c.toNat - 48)) cs
        else .error .tooLarge
      else .error .invalidDigit

def numeral (bound : Nat) : List Char → Except NumeralFault Nat
  | [] => .error .empty
  | ['+'] => .error .invalidDigit
  | '+' :: cs => digitsFrom bound 0 cs
  | cs => digitsFrom bound 0 cs

def signedNumeral (bound : Nat) : List Char → Except NumeralFault Nat
  | ['-'] => .error .invalidDigit
  | '-' :: cs => digitsFrom 1 0 cs
  | cs => numeral bound cs

end TrafficStore.Text
