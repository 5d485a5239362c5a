/-!
# UTF-8 and percent escapes

Bytes to characters and back. `decodeLossy` reads any bytes: each longest start of a character that
is broken off, and each byte that starts none, becomes one replacement character. In a percent escape,
`%` and two hexadecimal digits stand for a byte. Each escape is read once; a `%` that starts none is an
ordinary byte.
-/

namespace CodeAtlas.Text

def encodeUtf8 (text : List Char) : List UInt8 :=
  text.flatMap String.utf8EncodeChar

def bytesOf (s : String) : List UInt8 :=
  s.toUTF8.data.toList

def decodeUtf8? (bytes : List UInt8) : Option String :=
  String.fromUTF8? ⟨bytes.toArray⟩

def isContinuation (b : UInt8) : Bool :=
  0x80 ≤ b && b ≤ 0xbf

/-- What a first byte announces: how many bytes follow, the range of the second one, and the bits
the first one contributes. -/
structure Lead where
  follow : Nat
  low : UInt8
  high : UInt8
  bits : Nat

/-- The announcement of a byte that starts a character of several bytes. -/
def Lead.ofByte? (b : UInt8) : Option Lead :=
  if 0xc2 ≤ b && b ≤ 0xdf then some ⟨1, 0x80, 0xbf, b.toNat - 0xc0⟩
  else if b == 0xe0 then some ⟨2, 0xa0, 0xbf, 0⟩
  else if b == 0xed then some ⟨2, 0x80, 0x9f, 0xd⟩
  else if 0xe1 ≤ b && b ≤ 0xef then some ⟨2, 0x80, 0xbf, b.toNat - 0xe0⟩
  else if b == 0xf0 then some ⟨3, 0x90, 0xbf, 0⟩
  else if 0xf1 ≤ b && b ≤ 0xf3 then some ⟨3, 0x80, 0xbf, b.toNat - 0xf0⟩
  else if b == 0xf4 then some ⟨3, 0x80, 0x8f, 4⟩
  else none

/-- The character `bytes` continue, given the bits read so far and the bytes still owed, each of
them a continuation; and how many bytes were read. A character broken off is replaced. -/
def decodeTail (bits : Nat) (read : Nat) : Nat → List UInt8 → Char × Nat
  | 0, _ => (Char.ofNat bits, read)
  | _ + 1, [] => ('�', read)
  | owed + 1, b :: bytes =>
    if isContinuation b then decodeTail (bits * 64 + (b.toNat - 0x80)) (read + 1) owed bytes
    else ('�', read)

/-- The first character of `b :: bytes`, and how many of `bytes` belong to it. -/
def decodeChar (b : UInt8) (bytes : List UInt8) : Char × Nat :=
  if b < 0x80 then (Char.ofNat b.toNat, 0)
  else
    match Lead.ofByte? b, bytes with
    | some lead, second :: rest =>
      if lead.low ≤ second && second ≤ lead.high then
        decodeTail (lead.bits * 64 + (second.toNat - 0x80)) 1 (lead.follow - 1) rest
      else ('�', 0)
    | _, _ => ('�', 0)

/-- The text of `bytes`, broken characters replaced. `done` holds the characters read so far, last
first. -/
def decodeLossyFrom (done : List Char) : List UInt8 → List Char
  | [] => done.reverse
  | b :: bytes =>
    let (c, used) := decodeChar b bytes
    decodeLossyFrom (c :: done) (bytes.drop used)
termination_by bytes => bytes.length

def decodeLossy (bytes : List UInt8) : List Char :=
  decodeLossyFrom [] bytes

def units16 (c : Char) : Nat :=
  if c.toNat < 0x10000 then 1 else 2

def byteLength (text : List Char) : Nat :=
  text.foldr (fun c bytes => c.utf8Size + bytes) 0

/-- `text` cut after its first `bytes` bytes; a character that the cut would divide goes to the
second part. -/
def splitBytes : Nat → List Char → List Char × List Char
  | _, [] => ([], [])
  | bytes, c :: cs =>
    if c.utf8Size ≤ bytes then
      let (head, tail) := splitBytes (bytes - c.utf8Size) cs
      (c :: head, tail)
    else ([], c :: cs)

/-- What `text` has from the place `start` up to the place `stop`, both in bytes, if they are in order and
divide no character. -/
def slice? (text : List Char) (start stop : Nat) : Option (List Char) :=
  let (head, rest) := splitBytes start text
  let (slice, _) := splitBytes (stop - start) rest
  if start ≤ stop && byteLength head == start && byteLength slice == stop - start then some slice
  else none

def hexDigit? (b : UInt8) : Option UInt8 :=
  if 0x30 ≤ b && b ≤ 0x39 then some (b - 0x30)
  else if 0x41 ≤ b && b ≤ 0x46 then some (b - 0x37)
  else if 0x61 ≤ b && b ≤ 0x66 then some (b - 0x57)
  else none

/-- `bytes` with every percent escape replaced by the byte it stands for. -/
def percentDecode : List UInt8 → List UInt8
  | [] => []
  | 0x25 :: high :: low :: rest =>
    match hexDigit? high, hexDigit? low with
    | some h, some l => (h * 16 + l) :: percentDecode rest
    | _, _ => 0x25 :: percentDecode (high :: low :: rest)
  | b :: rest => b :: percentDecode rest

end CodeAtlas.Text
