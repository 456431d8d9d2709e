import TrafficStore.Panel
import TrafficStore.Text.Lines
import TrafficStore.Text.Numeral
import TrafficStore.Text.Quoted

namespace TrafficStore

structure LogRecord where
  panel : Panel
  key : String
  bytes : UInt64
  deriving DecidableEq, Repr

inductive RecordFault where
  | unknownPanel (typed : String)
  | missingKey
  | badCount (typed : String) (fault : Text.NumeralFault)
  deriving DecidableEq, Repr

namespace RecordFault

def messages : RecordFault → List String
  | unknownPanel typed => [Panel.unknownMessage typed]
  | missingKey => ["missing key"]
  | badCount typed fault => [s!"invalid byte count {Text.quoted typed}", fault.message]

end RecordFault

namespace LogRecord

def parseCount : List (List Char) → Except RecordFault UInt64
  | [] => .ok 0
  | typed :: _ =>
      match Text.numeral UInt64.size (Text.trim typed) with
      | .ok n => .ok (.ofNat n)
      | .error f => .error (.badCount (.ofList typed) f)

def parseFields : List (List Char) → Except RecordFault LogRecord
  | [] => .error (.unknownPanel "")
  | typed :: rest =>
      match Panel.ofText? (.ofList typed), rest with
      | none, _ => .error (.unknownPanel (.ofList typed))
      | some _, [] => .error .missingKey
      | some _, [] :: _ => .error .missingKey
      | some p, key :: rest => (parseCount rest).map (fun n => ⟨p, .ofList key, n⟩)

def parse (line : String) : Except RecordFault LogRecord :=
  parseFields (Text.fields '\t' line.toList)

end LogRecord

end TrafficStore
