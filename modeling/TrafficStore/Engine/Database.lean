import TrafficStore.Engine.DiskImage

namespace TrafficStore

inductive TableFault where
  | missing (name : String)
  | broken (reason : String)
  deriving DecidableEq, Repr

class Database (δ : Type) where
  ReadTxn : Type
  WriteTxn : Type
  Handle : Type
  fileSize : Work δ String Nat
  tableNames : δ → List String
  reopen : δ → δ
  content : δ → Content
  beginRead : Work δ String ReadTxn
  beginWrite : (deferred : Bool) → Work δ String WriteTxn
  openRead : String → Work (ReadTxn × δ) TableFault Handle
  openWrite : String → Work (WriteTxn × δ) TableFault Handle
  find : Handle → Bytes → Work δ String (Option Bytes)
  count : Handle → Work δ String Nat
  records : Handle → Work δ String (List (Bytes × Bytes))
  insert : Handle → Bytes → Bytes → Work (WriteTxn × δ) String Unit
  commit : WriteTxn → Work δ String Unit

structure TableFile where
  content : Content := .empty
  deriving DecidableEq

namespace TableFile

def openRead (name : String) : Work (Content × TableFile) TableFault (String × Table) := ⟨fun s =>
  match s.1.find? name with
  | some t => (.ok (name, t), s)
  | none => (.error (.missing name), s)⟩

def openWrite (name : String) : Work (Content × TableFile) TableFault (String × Table) := ⟨fun s =>
  match s.1.find? name with
  | some t => (.ok (name, t), s)
  | none => (.ok (name, .empty), (s.1.insert name .empty, s.2))⟩

end TableFile

instance : Database TableFile where
  ReadTxn := Content
  WriteTxn := Content
  Handle := String × Table
  fileSize := ⟨fun d => (.ok (DiskImage.image d.content).length, d)⟩
  tableNames d := d.content.keys
  reopen d := d
  content := TableFile.content
  beginRead := ⟨fun d => (.ok d.content, d)⟩
  beginWrite _ := ⟨fun d => (.ok d.content, d)⟩
  openRead := TableFile.openRead
  openWrite := TableFile.openWrite
  find h key := return h.2.find? key
  count h := return h.2.size
  records h := return h.2.entries
  insert h key value := Work.update (fun s => (s.1.insert h.1 (h.2.insert key value), s.2))
  commit c := Work.update (fun _ => ⟨c⟩)

end TrafficStore
