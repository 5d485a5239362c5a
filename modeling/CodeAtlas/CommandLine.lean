import CodeAtlas.Site.Build

/-!
# The command line

The options of the command, and what a run of it does. An option is given once at most; its value
follows as the next argument or after an equals sign, and does not start with a hyphen unless it is
one.
-/

namespace CodeAtlas

/-- The options of a run that are given; each may be absent. -/
structure Options where
  input : Option String
  output : Option String
  dist : Option String
  uriMap : Option String
  jobs : Option Nat
  bench : Bool
  check : Bool
  deriving DecidableEq, Repr

inductive Request where
  | build (options : Options)
  | help
  | version
  deriving DecidableEq, Repr

inductive UsageFault where
  | unknown (argument : String)
  | repeated (option : String)
  | missingValue (option : String)
  | unwantedValue (option : String)
  | badValue (option value : String)
  deriving DecidableEq, Repr

def UsageFault.message : UsageFault → String
  | .unknown argument => s!"unexpected argument '{argument}' found"
  | .repeated option => s!"the argument '{option}' cannot be used multiple times"
  | .missingValue option => s!"a value is required for '{option}' but none was supplied"
  | .unwantedValue option => s!"unexpected value for '{option}' found; no more were expected"
  | .badValue option value => s!"invalid value '{value}' for '{option}'"

namespace Options

def empty : Options :=
  ⟨none, none, none, none, none, false, false⟩

/-- The options that take a value. -/
inductive Valued where
  | input
  | output
  | dist
  | uriMap
  | jobs
  deriving DecidableEq, Repr

/-- The options that are on or off. -/
inductive Switch where
  | bench
  | check
  deriving DecidableEq, Repr

/-- What the name of an option stands for. -/
inductive Meaning where
  | valued (option : Valued)
  | switch (option : Switch)
  | help
  | version
  deriving DecidableEq, Repr

/-- The meaning of a name after two hyphens. -/
def longMeaning? : String → Option Meaning
  | "input" => some (.valued .input)
  | "output" => some (.valued .output)
  | "dist" => some (.valued .dist)
  | "uri-map" => some (.valued .uriMap)
  | "jobs" => some (.valued .jobs)
  | "bench" => some (.switch .bench)
  | "check" => some (.switch .check)
  | "help" => some .help
  | "version" => some .version
  | _ => none

/-- The meaning of a letter after one hyphen. -/
def shortMeaning? : Char → Option Meaning
  | 'j' => some (.valued .jobs)
  | 'h' => some .help
  | 'V' => some .version
  | _ => none

/-- A number from 0 up to the largest 64-bit word, perhaps with a plus sign. -/
def number? (value : String) : Option Nat :=
  let digits :=
    match value.toList with
    | '+' :: digits => digits
    | digits => digits
  if digits.isEmpty || !digits.all Char.isDigit then none
  else
    let number := digits.foldl (fun n d => 10 * n + (d.toNat - '0'.toNat)) 0
    if number < UInt64.size then some number else none

/-- One more path option, which may be neither repeated nor empty. -/
def path (name : String) (before : Option String) (value : String) :
    Except UsageFault (Option String) :=
  if before.isSome then .error (.repeated name)
  else if value.isEmpty then .error (.badValue name value)
  else .ok (some value)

def setValue (options : Options) (option : Valued) (value : String) :
    Except UsageFault Options :=
  match option with
  | .input => (path "--input" options.input value).map fun input => { options with input }
  | .output => (path "--output" options.output value).map fun output => { options with output }
  | .dist => (path "--dist" options.dist value).map fun dist => { options with dist }
  | .uriMap => (path "--uri-map" options.uriMap value).map fun uriMap => { options with uriMap }
  | .jobs =>
    if options.jobs.isSome then .error (.repeated "--jobs")
    else
      match number? value with
      | some jobs => .ok { options with jobs := some jobs }
      | none => .error (.badValue "--jobs" value)

def setSwitch (options : Options) : Switch → Except UsageFault Options
  | .bench =>
    if options.bench then .error (.repeated "--bench") else .ok { options with bench := true }
  | .check =>
    if options.check then .error (.repeated "--check") else .ok { options with check := true }

/-- Whether an argument can be the value of the option before it. -/
def isValue (argument : String) : Bool :=
  argument == "-" || argument.toList.head? != some '-'

/-- What an argument is: the end of the options, an option after two hyphens or one, perhaps with a
value, or a value itself. -/
inductive Argument where
  | stop
  | long (name : String) (value : Option String)
  | short (letters : List Char)
  | value
  deriving DecidableEq, Repr

def Argument.ofString (argument : String) : Argument :=
  match argument.toList with
  | ['-', '-'] => .stop
  | '-' :: '-' :: rest =>
    let name := rest.takeWhile (· != '=')
    .long (String.ofList name)
      (if name.length < rest.length then some (String.ofList (rest.drop (name.length + 1)))
        else none)
  | ['-'] => .value
  | '-' :: letters => .short letters
  | _ => .value

/-- What the letters after one hyphen add to the options: the options, a request that needs no more
reading, or an option that takes the next argument for its value. -/
inductive Letters where
  | options (options : Options)
  | request (request : Request)
  | pending (option : Valued)

/-- Reads the letters after one hyphen. What follows a letter that takes a value is its value. -/
def readLetters (options : Options) : List Char → Except UsageFault Letters
  | [] => .ok (.options options)
  | letter :: letters =>
    match shortMeaning? letter with
    | none => .error (.unknown s!"-{letter}")
    | some .help => .ok (.request .help)
    | some .version => .ok (.request .version)
    | some (.switch option) =>
      match options.setSwitch option with
      | .error fault => .error fault
      | .ok options => readLetters options letters
    | some (.valued option) =>
      match letters with
      | [] => .ok (.pending option)
      | '=' :: value => (options.setValue option (String.ofList value)).map .options
      | value => (options.setValue option (String.ofList value)).map .options

def read (options : Options) : List String → Except UsageFault Request
  | [] => .ok (.build options)
  | argument :: arguments =>
    match Argument.ofString argument with
    | .stop =>
      match arguments with
      | [] => .ok (.build options)
      | extra :: _ => .error (.unknown extra)
    | .value => .error (.unknown argument)
    | .long name value =>
      match longMeaning? name, value with
      | none, _ => .error (.unknown argument)
      | some .help, none => .ok .help
      | some .version, none => .ok .version
      | some (.switch option), none => do
        read (← options.setSwitch option) arguments
      | some (.valued option), some value => do
        read (← options.setValue option value) arguments
      | some (.valued option), none =>
        match arguments with
        | [] => .error (.missingValue argument)
        | next :: arguments =>
          if isValue next then do
            read (← options.setValue option next) arguments
          else .error (.missingValue argument)
      | some _, some _ => .error (.unwantedValue argument)
    | .short letters => do
      match ← readLetters options letters with
      | .options options => read options arguments
      | .request request => .ok request
      | .pending option =>
        match arguments with
        | [] => .error (.missingValue argument)
        | next :: arguments =>
          if isValue next then do
            read (← options.setValue option next) arguments
          else .error (.missingValue argument)

end Options

def Request.ofArguments (arguments : List String) : Except UsageFault Request :=
  Options.read Options.empty arguments

/-- What a run of the command leaves: its exit status, what it prints, and what went wrong. -/
structure RunOutcome where
  exit : Nat
  output : String
  fault : Option SiteFault
  usage : Option UsageFault

namespace CommandLine

def versionText : String :=
  "sourcetree 0.3.0\n"

def helpText : String :=
  "Turn an LSIF dump into a static, browsable source site\n\n" ++
    "Usage: sourcetree [OPTIONS]\n\n" ++
    "Options:\n" ++
    "      --input <PATH>    LSIF dump to read [default: dump.lsif]\n" ++
    "      --output <PATH>   Output directory [default: out]\n" ++
    "      --dist <PATH>     Folder copied as the site's assets\n" ++
    "      --uri-map <PATH>  JSON object from document URI prefixes to output path prefixes\n" ++
    "      --bench           Log the duration of every stage\n" ++
    "      --check           Check the generated pages for well-formed HTML\n" ++
    "  -j, --jobs <N>        Worker threads\n" ++
    "  -h, --help            Print help\n" ++
    "  -V, --version         Print version\n"

/-- The exit status of a build: 2 if its pages were checked and one is not well nested. -/
def exitStatus (report : BuildReport) : Nat :=
  match report.check with
  | some (.invalid _ _) => 2
  | _ => 0

variable {m : Type → Type} [Monad m] [Disk m]

def buildSite (presentation : Presentation) (schedule : Site.Schedule) (options : Options) :
    ExceptT SiteFault m BuildReport := do
  let uriMap ←
    match options.uriMap with
    | some path => Site.readUriMap (.ofString path)
    | none => pure .empty
  let config : SiteConfig :=
    { input := .ofString (options.input.getD "dump.lsif")
      output := .ofString (options.output.getD "out")
      dist := options.dist.map DiskPath.ofString
      uriMap
      check := options.check }
  Site.build presentation config schedule

def run (presentation : Presentation) (schedule : Site.Schedule) (arguments : List String) :
    m RunOutcome := do
  match Request.ofArguments arguments with
  | .error fault => return ⟨2, "", none, some fault⟩
  | .ok .help => return ⟨0, helpText, none, none⟩
  | .ok .version => return ⟨0, versionText, none, none⟩
  | .ok (.build options) =>
    match ← (buildSite presentation schedule options).run with
    | .ok report => return ⟨exitStatus report, "", none, none⟩
    | .error fault => return ⟨1, "", some fault, none⟩

end CommandLine

end CodeAtlas
