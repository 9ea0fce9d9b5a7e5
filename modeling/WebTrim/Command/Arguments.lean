import WebTrim.Text.Letter

/-!
# Arguments of the command line

The command takes one directory and a few options. A long option may be cut short as long as it
stays clear which one is meant, a value may follow as the next word or after an equals sign, letters
may be bundled after one dash, and a double dash ends the options.

* `Arguments.parse` — the arguments in a list of words, or why there are none.
-/

set_option autoImplicit false

namespace WebTrim.Command

open Text

/-- What the command is asked to do. -/
structure Arguments where
  root : Text
  config : Option Text := none
  dryRun : Bool := false
  logFile : Option Text := none
  verbose : Bool := false
  deriving DecidableEq, Repr

/-- Why the command does not start. -/
inductive Refusal where
  /-- Help was asked for. -/
  | help
  /-- The words make no sense. -/
  | usage
  deriving DecidableEq, Repr

/-- The exit code of a command that does not start. -/
def Refusal.exitCode : Refusal → Nat
  | help => 0
  | usage => 2

/-! ## Words -/

/-- The options. -/
inductive Switch where
  | help
  | config
  | dryRun
  | logFile
  | verbose
  deriving DecidableEq, Repr

namespace Switch

/-- All options. -/
def all : List Switch :=
  [help, config, dryRun, logFile, verbose]

/-- The long form. -/
def long : Switch → Text
  | help => "--help".toList
  | config => "--config".toList
  | dryRun => "--dry-run".toList
  | logFile => "--log-file".toList
  | verbose => "--verbose".toList

/-- Whether a value belongs to the option. -/
def takesValue : Switch → Bool
  | config => true
  | logFile => true
  | _ => false

/-- The option with a one-letter form; none of them takes a value. -/
def ofLetter? (c : Char) : Option Switch :=
  if c = 'h' then some help else if c = 'v' then some verbose else none

/-- The option with exactly this form. -/
def ofForm? (form : Text) : Option Switch :=
  match form with
  | ['-', c] => ofLetter? c
  | _ => all.find? fun s => s.long == form

end Switch

/-- The kinds of words on a command line. -/
inductive Word where
  | plain (t : Text)
  /-- The double dash that ends the options. -/
  | divider
  /-- An option, perhaps with a value after an equals sign. -/
  | switch (s : Switch) (value : Option Text)
  /-- A one-letter option with more letters after it. -/
  | bundle (s : Switch) (letters : Text)
  | unknown
  deriving DecidableEq, Repr

/-- Whether the text after a dash makes a negative number. -/
def isNumberAfterDash (t : Text) : Bool :=
  let (whole, rest) := splitWhile isDecimalDigit (dropFinalNewline t)
  match rest with
  | [] => !whole.isEmpty
  | '.' :: fraction => !fraction.isEmpty && fraction.all isDecimalDigit
  | _ => false

/-- The text before the first equals sign and, if there is one, the text after it. -/
def splitValue (t : Text) : Text × Option Text :=
  match cut? ['='] t with
  | some (name, value) => (name, some value)
  | none => (t, none)

/-- A word that is no option by its form: a negative number or a text with a space is a plain word.
-/
def unknownWord (word rest : Text) : Word :=
  if isNumberAfterDash rest || word.contains ' ' then .plain word else .unknown

/-- The option that a longer word starting with a dash stands for. It may be cut short, or be a
letter with more letters after it. -/
def readSwitch (word rest : Text) : Except Refusal Word :=
  let (name, value) := splitValue word
  match Switch.ofForm? name, value, rest with
  | some s, some value, _ => .ok (.switch s (some value))
  | _, _, '-' :: _ =>
    match Switch.all.filter fun s => name.isPrefixOf s.long with
    | [] => .ok (unknownWord word rest)
    | [s] => .ok (.switch s value)
    | _ => .error .usage
  | _, _, c :: more =>
    match Switch.ofLetter? c with
    | some s => .ok (.bundle s more)
    | none => .ok (unknownWord word rest)
  | _, _, [] => .ok (.plain word)

/-- The kind of a word before the divider. -/
def readWord (word : Text) : Except Refusal Word :=
  match Switch.ofForm? word, word with
  | some s, _ => .ok (.switch s none)
  | none, '-' :: rest => readSwitch word rest
  | none, _ => .ok (.plain word)

/-- The kinds of the words. After the divider all words are plain. -/
def readWords : List Text → Except Refusal (List Word)
  | [] => .ok []
  | word :: rest =>
    if word = ['-', '-'] then .ok (.divider :: rest.map .plain)
    else do return (← readWord word) :: (← readWords rest)

/-! ## Arguments -/

/-- The arguments read so far, and whether there was a word too many. -/
structure Draft where
  root : Option Text := none
  config : Option Text := none
  dryRun : Bool := false
  logFile : Option Text := none
  verbose : Bool := false
  extra : Bool := false
  deriving DecidableEq, Repr

namespace Draft

/-- A plain word is the directory, if there is none yet. -/
def addPlain (d : Draft) (t : Text) : Draft :=
  match d.root with
  | none => { d with root := some t }
  | some _ => { d with extra := true }

/-- An option that stands without a value. -/
def addFlag (d : Draft) (s : Switch) : Except Refusal Draft :=
  match s with
  | .help => .error .help
  | .dryRun => .ok { d with dryRun := true }
  | .verbose => .ok { d with verbose := true }
  | .config => .error .usage
  | .logFile => .error .usage

/-- An option with its value. -/
def addValue (d : Draft) (s : Switch) (value : Text) : Draft :=
  match s with
  | .config => { d with config := some value }
  | .logFile => { d with logFile := some value }
  | _ => d

/-- The options of the letters after a one-letter option. -/
def bundled : Text → Except Refusal (List Switch)
  | [] => .ok []
  | c :: rest =>
    match Switch.ofLetter? c with
    | some s => do return s :: (← bundled rest)
    | none => .error .usage

/-- Reads the words from left to right. The divider goes with the directory on either side of it. -/
def read (d : Draft) : List Word → Except Refusal Draft
  | [] => .ok d
  | .plain t :: .divider :: rest =>
    if d.root.isNone then (d.addPlain t).read rest else { d with extra := true }.read rest
  | .plain t :: rest => (d.addPlain t).read rest
  | .divider :: rest => { d with extra := d.extra || d.root.isSome }.read rest
  | .unknown :: rest => { d with extra := true }.read rest
  | .bundle s letters :: rest => do ((← (s :: (← bundled letters)).foldlM addFlag d)).read rest
  | .switch s (some value) :: rest =>
    if s.takesValue then (d.addValue s value).read rest else .error .usage
  | .switch s none :: .plain t :: rest =>
    if s.takesValue then (d.addValue s t).read rest
    else do (← d.addFlag s).read (.plain t :: rest)
  | .switch s none :: rest => do (← d.addFlag s).read rest

end Draft

/-- The arguments in a list of words. -/
def Arguments.parse (words : List Text) : Except Refusal Arguments := do
  let d ← ({} : Draft).read (← readWords words)
  match d.root, d.extra with
  | some root, false =>
    return ⟨root, d.config, d.dryRun, d.logFile, d.verbose⟩
  | _, _ => throw .usage

end WebTrim.Command
