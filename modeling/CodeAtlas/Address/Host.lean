import CodeAtlas.Domain.Name
import CodeAtlas.Text.Find
import CodeAtlas.Text.Utf8

/-!
# Hosts of URLs

The host of a URL is a domain name or a numeric address. For web and file URLs a name is read after
its percent escapes and brought to its normal form, and one whose last label is a number has to be a
valid IPv4 address. For other URLs the host is any text without certain characters.
-/

namespace CodeAtlas

inductive UrlFault where
  | relative
  | emptyHost
  | domainName
  | domainCharacter
  | portNumber
  | ipv4
  | ipv6
  deriving DecidableEq, Repr

def UrlFault.message : UrlFault → String
  | .relative => "relative URL without a base"
  | .emptyHost => "empty host"
  | .domainName => "invalid international domain name"
  | .domainCharacter => "invalid domain character"
  | .portNumber => "invalid port number"
  | .ipv4 => "invalid IPv4 address"
  | .ipv6 => "invalid IPv6 address"

inductive Host where
  | absent
  | domain (name : List Char)
  | address
  deriving DecidableEq, Repr

namespace Host

/-! ### Numeric addresses -/

def digit? (base : Nat) (c : Char) : Option Nat :=
  let value :=
    if c.isDigit then c.toNat - '0'.toNat
    else if c.isLower then c.toNat - 'a'.toNat + 10
    else if c.isUpper then c.toNat - 'A'.toNat + 10
    else base
  if value < base then some value else none

/-- The value of digits in the given base; no digits make zero. -/
def number? (base : Nat) (digits : List Char) : Option Nat :=
  digits.foldlM (fun n c => (digit? base c).map fun d => n * base + d) 0

/-- A number of an IPv4 address: hexadecimal after `0x`, octal after `0`, or else decimal. -/
def part? : List Char → Option Nat
  | [] => none
  | '0' :: 'x' :: digits | '0' :: 'X' :: digits => number? 16 digits
  | '0' :: digits => number? 8 digits
  | digits => number? 10 digits

/-- The labels of a name, without the empty one that a closing dot leaves. -/
def labels (name : List Char) : List (List Char) :=
  let all := name.splitOn '.'
  if 1 < all.length && all.getLast? = some [] then all.dropLast else all

def endsInNumber (name : List Char) : Bool :=
  match (labels name).getLast? with
  | none => false
  | some last => (!last.isEmpty && last.all Char.isDigit) || (part? last).isSome

/-- Whether `name` is a valid IPv4 address: up to four numbers, of which the last takes the bytes
that the others leave. -/
def isIpv4 (name : List Char) : Bool :=
  match (labels name).mapM part? with
  | none => false
  | some numbers =>
    numbers.length ≤ 4 && numbers.dropLast.all (· ≤ 255) &&
      (numbers.getLast?.getD 0) < Nat.pow 256 (5 - numbers.length)

/-- Whether a piece of an IPv6 address is one to four hexadecimal digits. -/
def isGroup (piece : List Char) : Bool :=
  0 < piece.length && piece.length ≤ 4 && piece.all fun c => (digit? 16 c).isSome

/-- Whether `text` is a decimal number up to 255 without leading zeros. -/
def isByte (text : List Char) : Bool :=
  match text with
  | [] => false
  | ['0'] => true
  | '0' :: _ => false
  | digits => digits.length ≤ 3 && digits.all Char.isDigit && (number? 10 digits).getD 256 ≤ 255

/-- Whether `text` is an IPv4 address as it may end an IPv6 address. -/
def isDotted (text : List Char) : Bool :=
  let parts := text.splitOn '.'
  parts.length == 4 && parts.all isByte

/-- The number of groups that colon-separated pieces stand for, if they are in order. -/
def groups? (dotted : Bool) (text : List Char) : Option Nat :=
  if text.isEmpty then some 0
  else
    let pieces := text.splitOn ':'
    if pieces.all isGroup then some pieces.length
    else if dotted && pieces.dropLast.all isGroup && isDotted (pieces.getLast?.getD []) then
      some (pieces.length + 1)
    else none

/-- Whether `text` is a valid IPv6 address: eight groups, or fewer around one `::`. -/
def isIpv6 (text : List Char) : Bool :=
  match Text.splitAtRun [':', ':'] text with
  | none => groups? true text == some 8
  | some (left, right) =>
    match groups? false left, groups? true (right.drop 2) with
    | some a, some b => a + b ≤ 7
    | _, _ => false

def bracketed (text : List Char) : Except UrlFault Host :=
  if text.getLast? = some ']' && isIpv6 (text.drop 1).dropLast then .ok .address else .error .ipv6

/-! ### Names -/

/-- The host of a web or file URL. -/
def ofName (text : List Char) : Except UrlFault Host :=
  if text.head? = some '[' then bracketed text
  else
    let decoded? := Text.decodeUtf8? (Text.percentDecode (Text.encodeUtf8 text))
    match decoded?.bind fun decoded => Domain.name? decoded.toList with
    | none => .error .domainName
    | some name =>
      if name.isEmpty then .error .emptyHost
      else if endsInNumber name then if isIpv4 name then .ok .address else .error .ipv4
      else .ok (.domain name)

/-- Whether the host of any other URL may not hold `c`. -/
def isForbidden (c : Char) : Bool :=
  c == '\x00' || " #/:<>?@[\\]^|".toList.contains c

/-- The host of any other URL. -/
def ofText (text : List Char) : Except UrlFault Host :=
  if text.head? = some '[' then bracketed text
  else if text.any isForbidden then .error .domainCharacter
  else if text.isEmpty then .ok .absent
  else .ok (.domain text)

/-- Whether a URL with this host is about the local machine. -/
def isLocal : Host → Bool
  | .absent => true
  | .domain name => name == "localhost".toList
  | .address => false

end Host

end CodeAtlas
