import TrafficStore.Engine
import TrafficStore.Format

namespace TrafficStore.DiskImage

def mark : Bytes := [0x74, 0x61, 0x62, 0x6C, 0x65, 0x73, 0x00, 0x01]

def number (n : Nat) : Bytes :=
  if h : n < 128 then [UInt8.ofNat n]
  else UInt8.ofNat (128 + n % 128) :: number (n / 128)

def block (bs : Bytes) : Bytes := number bs.length ++ bs

def recordImage (r : Bytes × Bytes) : Bytes := block r.1 ++ block r.2

def tableImage (t : String × Table) : Bytes :=
  block (Text.Utf8.encode t.1) ++ number t.2.size ++ t.2.entries.flatMap recordImage

def image (c : Content) : Bytes := mark ++ number c.size ++ c.entries.flatMap tableImage

def takeNumber : Bytes → Option (Nat × Bytes)
  | [] => none
  | b :: bs =>
      if b.toNat < 128 then some (b.toNat, bs)
      else (takeNumber bs).map (fun r => (b.toNat - 128 + 128 * r.1, r.2))

def takeBytes (n : Nat) (bs : Bytes) : Option (Bytes × Bytes) :=
  if n ≤ bs.length then some (bs.take n, bs.drop n) else none

def takeBlock (bs : Bytes) : Option (Bytes × Bytes) :=
  (takeNumber bs).bind (fun r => takeBytes r.1 r.2)

def takeRecord (bs : Bytes) : Option ((Bytes × Bytes) × Bytes) :=
  (takeBlock bs).bind (fun k => (takeBlock k.2).map (fun v => ((k.1, v.1), v.2)))

def takeRecords : Nat → Table → Bytes → Option (Table × Bytes)
  | 0, t, bs => some (t, bs)
  | n + 1, t, bs => (takeRecord bs).bind (fun r => takeRecords n (t.insert r.1.1 r.1.2) r.2)

def takeTable (bs : Bytes) : Option ((String × Table) × Bytes) :=
  (takeBlock bs).bind (fun name =>
    (Text.Utf8.decode name.1).toOption.bind (fun s =>
      (takeNumber name.2).bind (fun n =>
        (takeRecords n.1 .empty n.2).map (fun t => ((s, t.1), t.2)))))

def takeTables : Nat → Content → Bytes → Option (Content × Bytes)
  | 0, c, bs => some (c, bs)
  | n + 1, c, bs => (takeTable bs).bind (fun t => takeTables n (c.insert t.1.1 t.1.2) t.2)

def read (bs : Bytes) : Option Content :=
  (takeBytes mark.length bs).bind (fun m =>
    if m.1 = mark then
      (takeNumber m.2).bind (fun n =>
        (takeTables n.1 .empty n.2).bind (fun c => if c.2 = [] then some c.1 else none))
    else none)

theorem takeNumber_number (n : Nat) (bs : Bytes) : takeNumber (number n ++ bs) = some (n, bs) := by
  induction n using Nat.strongRecOn with
  | ind n ih =>
      rw [number]
      split
      · next h =>
          rw [List.cons_append, List.nil_append, takeNumber, Text.Utf8.toNat_byte (by omega),
            if_pos h]
      · next h =>
          rw [List.cons_append, takeNumber, Text.Utf8.toNat_byte (by omega), if_neg (by omega),
            ih (n / 128) (by omega)]
          have hn : 128 + n % 128 - 128 + 128 * (n / 128) = n := by omega
          exact congrArg some (congrArg (fun k => (k, bs)) hn)

theorem takeBytes_append (bs rest : Bytes) :
    takeBytes bs.length (bs ++ rest) = some (bs, rest) := by
  rw [takeBytes, if_pos (by simp), List.take_left, List.drop_left]

theorem takeBlock_block (bs rest : Bytes) : takeBlock (block bs ++ rest) = some (bs, rest) := by
  rw [takeBlock, block, List.append_assoc, takeNumber_number, Option.bind_some, takeBytes_append]

theorem takeRecord_recordImage (r : Bytes × Bytes) (rest : Bytes) :
    takeRecord (recordImage r ++ rest) = some (r, rest) := by
  rw [takeRecord, recordImage, List.append_assoc, takeBlock_block, Option.bind_some,
    takeBlock_block]
  rfl

theorem takeRecords_recordImages (rs : List (Bytes × Bytes)) (rest : Bytes) :
    ∀ t : Table, takeRecords rs.length t (rs.flatMap recordImage ++ rest) =
      some (rs.foldl (fun acc e => acc.insert e.1 e.2) t, rest) := by
  induction rs with
  | nil => intro t; rfl
  | cons r rs ih =>
      intro t
      rw [List.length_cons, takeRecords, List.flatMap_cons, List.append_assoc,
        takeRecord_recordImage, Option.bind_some, ih]
      rfl

theorem takeTable_tableImage (t : String × Table) (rest : Bytes) :
    takeTable (tableImage t ++ rest) = some (t, rest) := by
  have hm := SortedMap.empty_merge t.2
  rw [SortedMap.merge] at hm
  rw [takeTable, tableImage, List.append_assoc, List.append_assoc, takeBlock_block,
    Option.bind_some, Text.Utf8.decode_encode]
  simp only [Except.toOption, Option.bind_some]
  rw [takeNumber_number, Option.bind_some, SortedMap.size, takeRecords_recordImages, hm]
  rfl

theorem takeTables_tableImages (ts : List (String × Table)) (rest : Bytes) :
    ∀ c : Content, takeTables ts.length c (ts.flatMap tableImage ++ rest) =
      some (ts.foldl (fun acc e => acc.insert e.1 e.2) c, rest) := by
  induction ts with
  | nil => intro c; rfl
  | cons t ts ih =>
      intro c
      rw [List.length_cons, takeTables, List.flatMap_cons, List.append_assoc,
        takeTable_tableImage, Option.bind_some, ih]
      rfl

theorem read_image (c : Content) : read (image c) = some c := by
  have hm := SortedMap.empty_merge c
  rw [SortedMap.merge] at hm
  have ht := takeTables_tableImages c.entries [] .empty
  rw [List.append_nil, hm] at ht
  rw [read, image, List.append_assoc, takeBytes_append, Option.bind_some, if_pos rfl,
    takeNumber_number, Option.bind_some, SortedMap.size, ht, Option.bind_some, if_pos rfl]

end TrafficStore.DiskImage
