import SpeechStream.Tensor.Basic
import SpeechStream.Network.Cmvn
/-!
Array files: single arrays (`.npy`) and archives of named arrays (`.npz`).

An array file starts with six magic bytes (0x93 and five capital letters), a version, the
length of a header, and the header: a literal mapping with the element type (`descr`, such as
`<f4`), whether the data is in column-major order (`fortran_order`) and the shape. The data
follows, one element after another. Elements are floats of four or eight bytes, signed or
unsigned integers of one to eight bytes, or truth values of one byte, little- or big-endian as
the type says; every element is read as a double.

An archive is a ZIP file whose members are array files named `<key>.npy`, stored without
compression. Its central directory, found through the end record, lists every member with the
offset of its local header; sizes too large for the plain records are read from the ZIP64
extra field.
-/

set_option autoImplicit false

namespace SpeechStream.Arrays

/-- The byte at a position, zero past the end. -/
def byteAt (b : ByteArray) (pos : Nat) : Nat := (b.data.getD pos 0).toNat

/-- The unsigned number of `len` little-endian bytes at a position: `Σ byte[pos+i] · 256^i`. -/
def littleEndian (b : ByteArray) (pos len : Nat) : Nat :=
  (List.range len).foldr (fun i acc => acc * 256 + byteAt b (pos + i)) 0

/-- The unsigned number of `len` big-endian bytes at a position. -/
def bigEndian (b : ByteArray) (pos len : Nat) : Nat :=
  (List.range len).foldl (fun acc i => acc * 256 + byteAt b (pos + i)) 0

/-- The bytes from a position on, `len` of them. -/
def slice (b : ByteArray) (pos len : Nat) : ByteArray := b.extract pos (pos + len)

/-- The kinds of array elements. -/
inductive ElementKind where
  | float
  | signed
  | unsigned
  | truth
  deriving BEq, Inhabited

/-- An element type: its kind, its size in bytes and its byte order. -/
structure Element where
  kind : ElementKind
  size : Nat
  bigEndian : Bool
  deriving Inhabited

/-- The element type a type text such as `<f4`, `>i8` or `|b1` names. -/
def Element.ofDescr (d : String) : Option Element :=
  match d.toList with
  | [order, k, n] =>
    let big := order == '>'
    let size := n.toNat - '0'.toNat
    if !(order == '<' || order == '>' || order == '|' || order == '=') then none
    else match k with
      | 'f' => if size == 4 || size == 8 then some ⟨.float, size, big⟩ else none
      | 'i' => if size == 1 || size == 2 || size == 4 || size == 8 then some ⟨.signed, size, big⟩ else none
      | 'u' => if size == 1 || size == 2 || size == 4 || size == 8 then some ⟨.unsigned, size, big⟩ else none
      | 'b' => if size == 1 then some ⟨.truth, 1, big⟩ else none
      | _ => none
  | _ => none

/-- The element at a byte position, as a double. -/
def Element.read (e : Element) (b : ByteArray) (pos : Nat) : Float :=
  let raw := if e.bigEndian then Arrays.bigEndian b pos e.size else littleEndian b pos e.size
  match e.kind with
  | .float =>
    if e.size == 4 then (Float32.ofBits raw.toUInt32).toFloat else Float.ofBits raw.toUInt64
  | .signed =>
    let half := Nat.pow 2 (8 * e.size - 1)
    if raw ≥ half then Float.ofInt ((raw : Int) - Int.pow 2 (8 * e.size)) else Float.ofNat raw
  | .unsigned => Float.ofNat raw
  | .truth => if raw == 0 then 0 else 1

/-- The text after a key in a header, from the first character that is not a blank. -/
def afterKey (header key : String) : Option (List Char) :=
  match header.splitOn ("'" ++ key ++ "':") with
  | _ :: rest :: _ => some (rest.toList.dropWhile (· == ' '))
  | _ => none

/-- The element type of a header. -/
def headerDescr (header : String) : Option Element := do
  let cs ← afterKey header "descr"
  match cs with
  | '\'' :: rest => Element.ofDescr (String.ofList (rest.takeWhile (· != '\'')))
  | _ => none

/-- Whether a header says the data is in column-major order. -/
def headerFortran (header : String) : Option Bool := do
  let cs ← afterKey header "fortran_order"
  if cs.take 4 == ['T', 'r', 'u', 'e'] then some true
  else if cs.take 5 == ['F', 'a', 'l', 's', 'e'] then some false
  else none

/-- The shape of a header: the integers of its tuple. -/
def headerShape (header : String) : Option (List Nat) := do
  let cs ← afterKey header "shape"
  match cs with
  | '(' :: rest =>
    let body := String.ofList (rest.takeWhile (· != ')'))
    let parts := ((body.splitOn ",").map (fun p => p.trimAscii.toString)).filter (!·.isEmpty)
    parts.mapM String.toNat?
  | _ => none

/-- The position in column-major data of the element at row-major position `k` of a shape. -/
def columnMajorSource (shape : List Nat) (k : Nat) : Nat :=
  -- the multi-index of row-major position k, then its column-major offset
  let (idx, _) := shape.foldr (fun d (acc : List Nat × Nat) =>
    if d == 0 then (0 :: acc.1, acc.2) else ((acc.2 % d) :: acc.1, acc.2 / d)) ([], k)
  let (off, _) := (idx.zip shape).foldl (fun (acc : Nat × Nat) (i, d) =>
    (acc.1 + i * acc.2, acc.2 * d)) (0, 1)
  off

/-- The magic bytes of an array file. -/
def magic : List Nat := [0x93, 0x4E, 0x55, 0x4D, 0x50, 0x59]

/-- An array file's shape and elements (in row-major order), or nothing when the bytes are not
an array file this reader knows. -/
def readArray (b : ByteArray) : Option (List Nat × Array Float) := do
  if (List.range 6).map (byteAt b) != magic then none
  let major := byteAt b 6
  let (lenBytes, start) := if major == 1 then (2, 10) else (4, 12)
  let headerLen := littleEndian b 8 lenBytes
  let header ← String.fromUTF8? (slice b start headerLen)
  let e ← headerDescr header
  let fortran ← headerFortran header
  let shape ← headerShape header
  let count := Tensor.count shape
  let dataStart := start + headerLen
  if b.size < dataStart + count * e.size then none
  let elementAt (k : Nat) : Float := e.read b (dataStart + k * e.size)
  let values := Array.ofFn (n := count) fun k =>
    if fortran then elementAt (columnMajorSource shape k.val) else elementAt k.val
  some (shape, values)

/-- A feature tensor from an array file, its elements rounded to single precision. -/
def readFeatures (b : ByteArray) : Option Tensor :=
  (readArray b).map (fun (shape, vs) => ⟨shape, vs.map Float.toFloat32⟩)

/-- One member of an archive: its name and its stored bytes. -/
structure Member where
  name : String
  bytes : ByteArray

/-- The position of the end record of a ZIP file, searching back from the end. -/
def endRecord? (b : ByteArray) : Option Nat :=
  let last := b.size - 22
  ((List.range (min (last + 1) 65558)).map (fun i => last - i)).find? (fun p =>
    b.size ≥ 22 && littleEndian b p 4 == 0x06054b50)

/-- The sizes and local offset of a central record, with its ZIP64 extra field where the plain
fields are full. -/
def zip64Fields (b : ByteArray) (extra extraLen : Nat) (plain : List Nat) : List Nat :=
  -- walk the extra fields to the one with id 1
  let rec find (fuel pos : Nat) : Option Nat :=
    match fuel with
    | 0 => none
    | fuel + 1 =>
      if pos + 4 > extra + extraLen then none
      else if littleEndian b pos 2 == 1 then some (pos + 4)
      else find fuel (pos + 4 + littleEndian b (pos + 2) 2)
  match find (extraLen + 1) extra with
  | none => plain
  | some start =>
    let (out, _) := plain.foldl (fun (acc : List Nat × Nat) v =>
      if v == 0xFFFFFFFF then (acc.1 ++ [littleEndian b acc.2 8], acc.2 + 8)
      else (acc.1 ++ [v], acc.2)) ([], start)
    out

/-- The members of a ZIP file stored without compression, or nothing when the bytes are not
one. -/
def readMembers (b : ByteArray) : Option (List Member) := do
  let e ← endRecord? b
  let count := littleEndian b (e + 10) 2
  let dirStart := littleEndian b (e + 16) 4
  let (members, _) ← (List.range count).foldlM (fun (acc : List Member × Nat) _ => do
    let p := acc.2
    if littleEndian b p 4 != 0x02014b50 then none
    let method := littleEndian b (p + 10) 2
    let nameLen := littleEndian b (p + 28) 2
    let extraLen := littleEndian b (p + 30) 2
    let commentLen := littleEndian b (p + 32) 2
    let name ← String.fromUTF8? (slice b (p + 46) nameLen)
    let sizes := zip64Fields b (p + 46 + nameLen) extraLen
      [littleEndian b (p + 24) 4, littleEndian b (p + 20) 4, littleEndian b (p + 42) 4]
    let size := sizes.getD 1 0
    let header := sizes.getD 2 0
    if method != 0 || littleEndian b header 4 != 0x04034b50 then none
    let dataStart := header + 30 + littleEndian b (header + 26) 2 + littleEndian b (header + 28) 2
    pure (acc.1 ++ [⟨name, slice b dataStart size⟩], p + 46 + nameLen + extraLen + commentLen))
    ([], dirStart)
  pure members

/-- The arrays of an archive by key: a member `<key>.npy` gives the array `key`. -/
def readArchive (b : ByteArray) : Option (List (String × Network.StatArray)) := do
  let members ← readMembers b
  members.mapM (fun m => do
    let (shape, values) ← readArray m.bytes
    let key := if m.name.endsWith ".npy" then (m.name.dropEnd 4).toString else m.name
    pure (key, ⟨shape, values⟩))

end SpeechStream.Arrays
