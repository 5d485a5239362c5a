import CodeAtlas.Address.Host

/-!
# URLs

As much of a URL as says which local file it names: the host and the segments of the path. The text
is read as browsers read it: blanks around it and line breaks in it are passed over, web and file
URLs take a backslash for a slash, and steps to this folder or the one above are carried out.
-/

namespace CodeAtlas

/-- A URL, without its query and fragment. -/
structure Url where
  host : Host
  /-- The segments of the path, if it starts with a slash. -/
  segments : Option (List (List Char))
  deriving DecidableEq, Repr

namespace Url

/-- The three ways of reading what follows the scheme. -/
inductive SchemeKind where
  | file
  | web
  | other
  deriving DecidableEq, Repr

/-- The kind of a scheme, which is given in lower case. -/
def SchemeKind.of (scheme : List Char) : SchemeKind :=
  if scheme = "file".toList then .file
  else if (["http", "https", "ws", "wss", "ftp"].map String.toList).contains scheme then .web
  else .other

/-- Whether the backslash divides segments. -/
def SchemeKind.isSpecial : SchemeKind → Bool
  | .other => false
  | _ => true

def isSlash (kind : SchemeKind) (c : Char) : Bool :=
  c == '/' || (kind.isSpecial && c == '\\')

def endsPath (c : Char) : Bool :=
  c == '?' || c == '#'

def endsAuthority (kind : SchemeKind) (c : Char) : Bool :=
  isSlash kind c || endsPath c

/-- Whether `c` is passed over wherever it stands. -/
def isBreak (c : Char) : Bool :=
  c == '\t' || c == '\n' || c == '\r'

/-- The text without tabs and line breaks. -/
def joined (text : List Char) : List Char :=
  text.filter fun c => !isBreak c

/-- The text without control characters and spaces at its ends. -/
def trimmed (text : List Char) : List Char :=
  let isEdge := fun c : Char => c.toNat ≤ 0x20
  ((text.dropWhile isEdge).reverse.dropWhile isEdge).reverse

/-- The scheme, in lower case, and what follows its colon. -/
def scheme? (text : List Char) : Option (List Char × List Char) :=
  let isPart := fun c : Char => c.isAlphanum || c == '+' || c == '-' || c == '.' || isBreak c
  let scheme := joined (text.takeWhile isPart)
  match scheme, text.dropWhile isPart with
  | c :: _, ':' :: rest => if c.isAlpha then some (scheme.map Char.toLower, rest) else none
  | _, _ => none

def afterSlash? (kind : SchemeKind) (text : List Char) : Option (List Char) :=
  match text.dropWhile isBreak with
  | c :: rest => if isSlash kind c then some rest else none
  | [] => none

/-! ### Paths -/

def isHere (segment : List Char) : Bool :=
  ([".", "%2e"].map String.toList).contains (segment.map Char.toLower)

def isUp (segment : List Char) : Bool :=
  (["..", ".%2e", "%2e.", "%2e%2e"].map String.toList).contains (segment.map Char.toLower)

/-- The letter of a drive, which is written with a colon or a bar after it. -/
def driveLetter? : List Char → Option Char
  | [letter, mark] => if letter.isAlpha && (mark == ':' || mark == '|') then some letter else none
  | _ => none

/-- The drive that `segment` gives away before its end, and the rest of the segment: a tab or a line
break follows the letter and the colon. -/
def brokenDrive? (segment : List Char) : Option (List Char × List Char) :=
  match joined segment with
  | letter :: ':' :: c :: rest =>
    let colonAndRest := segment.dropWhile (· != ':')
    if letter.isAlpha && ((colonAndRest.drop 1).head?.map isBreak).getD false then
      some ([letter, ':'], c :: rest)
    else none
  | _ => none

/-- The way into a path: its segments so far, last first, and whether it starts with a drive. -/
structure Trail where
  segments : List (List Char)
  onDrive : Bool
  deriving DecidableEq, Repr

namespace Trail

def start : Trail :=
  ⟨[], false⟩

/-- Whether a step to the folder above stays where it is: `segment` is a drive, as far as its first
backslash. -/
def isRoot (segment : List Char) : Bool :=
  (driveLetter? (segment.take 2)).isSome && (segment.drop 2).head?.all (· == '\\')

def up (trail : Trail) : Trail :=
  match trail.segments with
  | [] => trail
  | last :: before => if isRoot last then trail else { trail with segments := before }

def into (trail : Trail) (segment : List Char) : Trail :=
  { trail with segments := segment :: trail.segments }

/-- The trail of a file's path after a step into its first segment, which may be a drive. -/
def intoFirst (trail : Trail) (segment : List Char) : Trail :=
  match brokenDrive? segment, driveLetter? (joined segment) with
  | some (drive, rest), _ => (trail.into drive).into rest
  | none, some letter => ⟨[letter, ':'] :: trail.segments, true⟩
  | none, none => trail.into (joined segment)

/-- The trail after one more segment, which a slash follows unless it is the last one. -/
def step (kind : SchemeKind) (isLast : Bool) (trail : Trail) (segment : List Char) : Trail :=
  let ended := fun trail : Trail => if isLast then trail.into [] else trail
  if isUp (joined segment) then ended trail.up
  else if isHere (joined segment) then ended trail
  else if kind = .file && trail.segments.isEmpty then trail.intoFirst segment
  else trail.into (joined segment)

def walk (kind : SchemeKind) (trail : Trail) : List (List Char) → Trail
  | [] => trail
  | [segment] => trail.step kind true segment
  | segment :: rest => (trail.step kind false segment).walk kind rest

end Trail

/-- The trail of the path that `text` goes on with, from after the slash that starts it. -/
def trailOf (kind : SchemeKind) (text : List Char) : Trail :=
  let path := text.takeWhile fun c => !endsPath c
  Trail.start.walk kind ((path.map fun c => if isSlash kind c then '/' else c).splitOn '/')

def pathSegments (kind : SchemeKind) (text : List Char) : List (List Char) :=
  (trailOf kind text).segments.reverse

/-- The segments of a file's path: slashes at its start count as one. -/
def filePath (text : List Char) : List (List Char) :=
  match (pathSegments .file text).dropWhile List.isEmpty with
  | [] => [[]]
  | segments => segments

def dropSlash (kind : SchemeKind) (text : List Char) : List Char :=
  (afterSlash? kind text).getD text

/-! ### Hosts and ports -/

/-- The text of a host and what follows it. A colon ends the host unless it stands in brackets. -/
def takeHost (kind : SchemeKind) (inBrackets : Bool) : List Char → List Char × List Char
  | [] => ([], [])
  | c :: rest =>
    if endsAuthority kind c || (c == ':' && !inBrackets) then ([], c :: rest)
    else
      let inBrackets := if c == '[' then true else if c == ']' then false else inBrackets
      let (host, rest) := takeHost kind inBrackets rest
      (c :: host, rest)

/-- The text after a port, from after its colon. -/
def skipPort (port : Nat) : List Char → Except UrlFault (List Char)
  | [] => .ok []
  | c :: rest =>
    if c.isDigit then
      let port := port * 10 + (c.toNat - '0'.toNat)
      if port > 65535 then .error .portNumber else skipPort port rest
    else if c == '/' || c == '\\' || endsPath c then .ok (c :: rest)
    else .error .portNumber

/-- The user that a URL names before its host, and the text after it. -/
def takeUser (kind : SchemeKind) (text : List Char) : Option (List Char) × List Char :=
  let authority := text.takeWhile fun c => !endsAuthority kind c
  match authority.reverse.dropWhile (· != '@') with
  | [] => (none, text)
  | _ :: user => (some user.reverse, text.drop (user.length + 1))

/-- Whether a user leaves nothing to write: no name and no password. -/
def isNobody (user : List Char) : Bool :=
  user.isEmpty || user == [':']

def hostAndPort (kind : SchemeKind) (text : List Char) : Except UrlFault (Host × List Char) := do
  let (name, rest) := takeHost kind false text
  if name.isEmpty && (kind.isSpecial || rest.head? = some ':') then .error .emptyHost
  else
    let host ← if kind.isSpecial then Host.ofName name else Host.ofText name
    match rest with
    | ':' :: rest => return (host, ← skipPort 0 rest)
    | rest => return (host, rest)

def authority (kind : SchemeKind) (text : List Char) : Except UrlFault (Host × List Char) := do
  let (user, rest) := takeUser kind text
  if user = some [] && (rest.head?.map (endsAuthority kind)).getD false then .error .emptyHost
  else
    let (host, rest) ← hostAndPort kind rest
    if host = .absent && !isNobody (user.getD []) then .error .emptyHost else return (host, rest)

/-! ### Whole URLs -/

/-- A file URL, from after the two slashes that follow its scheme. A drive in the place of the host is
the start of the path, and a host before a drive is left out. -/
def parseShare (text : List Char) : Except UrlFault Url :=
  let name := joined (text.takeWhile fun c => !endsAuthority .file c)
  let after := text.dropWhile fun c => !endsAuthority .file c
  if (driveLetter? name).isSome then .ok ⟨.absent, some (filePath text)⟩
  else if name.isEmpty then .ok ⟨.absent, some (filePath after)⟩
  else
    match Host.ofName name with
    | .error fault => .error fault
    | .ok host =>
      if host.isLocal then .ok ⟨.absent, some (filePath after)⟩
      else
        let path := dropSlash .file after
        .ok ⟨if (trailOf .file path).onDrive then .absent else host, some (filePath path)⟩

def parseFile (text : List Char) : Except UrlFault Url :=
  match afterSlash? .file text with
  | none => .ok ⟨.absent, some (filePath text)⟩
  | some rest =>
    match afterSlash? .file rest with
    | none => .ok ⟨.absent, some (filePath rest)⟩
    | some rest => parseShare rest

def parseWeb (text : List Char) : Except UrlFault Url := do
  let (host, rest) ← authority .web (text.dropWhile (isSlash .web))
  return ⟨host, some (pathSegments .web (dropSlash .web rest))⟩

def parseOther (text : List Char) : Except UrlFault Url := do
  match text with
  | '/' :: '/' :: rest =>
    let (host, rest) ← authority .other rest
    match rest with
    | [] => return ⟨host, none⟩
    | c :: _ =>
      if endsPath c then return ⟨host, none⟩
      else return ⟨host, some (pathSegments .other (dropSlash .other rest))⟩
  | '/' :: rest => return ⟨.absent, some (pathSegments .other rest)⟩
  | _ => return ⟨.absent, none⟩

def parse (text : List Char) : Except UrlFault Url :=
  match scheme? (trimmed text) with
  | none => .error .relative
  | some (scheme, rest) =>
    match SchemeKind.of scheme with
    | .file => parseFile rest
    | .web => parseWeb (joined rest)
    | .other => parseOther (joined rest)

/-! ### Local files -/

/-- Whether a path ends in a drive, which needs a closing slash. -/
def endsInDrive (path : List UInt8) : Bool :=
  match path.reverse with
  | mark :: letter :: _ :: _ =>
    (mark == 0x3a || mark == 0x7c) &&
      ((0x41 ≤ letter && letter ≤ 0x5a) || (0x61 ≤ letter && letter ≤ 0x7a))
  | _ => false

/-- The local file that the URL names, as the bytes of its path. -/
def localPath? (url : Url) : Option (List UInt8) :=
  match url.segments with
  | none => none
  | some segments =>
    if url.host.isLocal then
      let path := segments.flatMap fun segment =>
        0x2f :: Text.percentDecode (Text.encodeUtf8 segment)
      some (if endsInDrive path then path ++ [0x2f] else path)
    else none

end Url

end CodeAtlas
