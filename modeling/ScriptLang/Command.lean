import ScriptLang.Evaluation
import ScriptLang.Grammar
import ScriptLang.Program.Canonical
import ScriptLang.Program.Outline
import ScriptLang.Text.Character
import ScriptLang.Text.Format

/-!
The command: one source text, a file or the lines typed at a prompt are handled as the arguments
ask. It is a function of the arguments, two switches of the environment, the files it may read and
what is typed. Every line at the prompt is a program of its own. Errors of a program are reported;
a failure that is nobody's to report ends the command without a status, and the prompt with it.
-/

set_option autoImplicit false
set_option relaxedAutoImplicit false

namespace ScriptLang.Command

structure Output where
  printed : String
  complaints : String
deriving DecidableEq, Repr

namespace Output

def empty : Output := ⟨"", ""⟩

def append (a b : Output) : Output :=
  ⟨a.printed ++ b.printed, a.complaints ++ b.complaints⟩

instance : Append Output := ⟨append⟩

@[simp] theorem printed_append (a b : Output) : (a ++ b).printed = a.printed ++ b.printed := rfl

@[simp] theorem complaints_append (a b : Output) :
    (a ++ b).complaints = a.complaints ++ b.complaints := rfl

def print (text : String) : Output := ⟨text, ""⟩

def complain (text : String) : Output := ⟨"", "exline: " ++ text ++ "\n"⟩

end Output

inductive Uncaught where
  | reading (e : SourceError)
  | running (stop : Stop)
deriving DecidableEq, Repr

/-- How a command ends: with a status, or by a failure that it does not handle. -/
inductive Ending where
  | exit (status : Nat)
  | uncaught (failure : Uncaught)
deriving DecidableEq, Repr

def Ending.isExit : Ending → Bool
  | exit _ => true
  | uncaught _ => false

structure Outcome where
  ending : Ending
  output : Output
deriving DecidableEq, Repr

namespace Outcome

def usageStatus : Nat := 64

def softwareStatus : Nat := 70

def fileStatus : Nat := 74

def after (before : Output) (o : Outcome) : Outcome :=
  ⟨o.ending, before ++ o.output⟩

end Outcome

structure Options where
  strict : Bool
  canonical : Bool
  listTokens : Bool
  outline : Bool
  verbose : Bool
deriving DecidableEq, Repr

namespace Options

/-- The switches before any argument; the environment may turn the two listings on. -/
def initial (listTokens outline : Bool) : Options :=
  ⟨false, false, listTokens, outline, false⟩

def set? (opts : Options) : String → Option Options
  | "--strict" => some { opts with strict := true }
  | "--emit" => some { opts with canonical := true }
  | "--debug-tokens" => some { opts with listTokens := true }
  | "--debug-ast" => some { opts with outline := true }
  | "--verbose" => some { opts with verbose := true }
  | _ => none

end Options

inductive Plan where
  | help
  | unknownFlag (flag : String)
  | unexpectedArgument (argument : String)
  | runFile (opts : Options) (path : String)
  | prompt (opts : Options)
deriving DecidableEq, Repr

/-- What the arguments ask for, read from left to right up to the first that settles it. The empty
path stands for no file. -/
def Plan.ofArguments (opts : Options) (path : String) : List String → Plan
  | [] => if path = "" then prompt opts else runFile opts path
  | argument :: more =>
    if argument = "--help" ∨ argument = "-h" then help
    else
      match opts.set? argument with
      | some opts => ofArguments opts path more
      | none =>
        if argument.toList.head? = some '-' then unknownFlag argument
        else if path = "" then ofArguments opts argument more
        else unexpectedArgument argument

def Options.terminators (opts : Options) : Terminators :=
  if opts.strict then .strict else .lenient

/-- An error of a program found at some stage, with what was written before it. -/
def report (before : Output) (stage : String) (p : Position) (message : String) : Outcome :=
  ⟨.exit Outcome.softwareStatus, before ++ .complain (stage ++ " error: " ++ p.locate message)⟩

def traceText (opts : Options) (trace : Array Event) : String :=
  if opts.verbose then String.join (trace.toList.map fun e => e.line ++ "\n") else ""

def runProgram (opts : Options) (before : Output) (p : Program) : Outcome :=
  let (result, machine) := p.run
  let output := before ++ ⟨machine.printed, traceText opts machine.trace⟩
  match result with
  | .ok () => ⟨.exit 0, output⟩
  | .error (.error e) => report output "runtime" e.position e.cause.message
  | .error stop => ⟨.uncaught (.running stop), output⟩

def runSource (opts : Options) (source : String) : Outcome :=
  match tokenize source with
  | .error (.fault e) => report .empty "lex" e.position e.cause.message
  | .error other => ⟨.uncaught (.reading (.lex other)), .empty⟩
  | .ok tokens =>
    let listed : Output :=
      if opts.listTokens then .print ("Tokens:\n" ++ Token.listing tokens) else .empty
    match Program.ofTokens opts.terminators tokens with
    | .error (.syntaxError e) => report listed "parse" e.position e.cause.message
    | .error other => ⟨.uncaught (.reading (.parse other)), listed⟩
    | .ok p =>
      let outlined : Output :=
        if opts.outline then .print ("AST:\n" ++ p.outlineText) else .empty
      if opts.canonical then
        ⟨.exit 0, listed ++ outlined ++ .print p.text⟩
      else
        runProgram opts (listed ++ outlined) p

/-- What is found at a path: nothing, a refusal of the system with its code, or bytes. -/
inductive FileContent where
  | missing
  | refused (code : Nat)
  | bytes (content : ByteArray)

def refusalReason : Nat → String
  | 13 => "Permission denied"
  | 20 => "Not a directory"
  | 21 => "Is a directory"
  | 36 => "File name too long"
  | _ => "Input/output error"

def runFile (opts : Options) (path : String) (content : FileContent) : Outcome :=
  let unreadable (reason : String) : Outcome :=
    ⟨.exit Outcome.fileStatus, .complain (path ++ ": " ++ reason)⟩
  match content with
  | .missing => unreadable "No such file or directory"
  | .refused code =>
    unreadable ("[Errno " ++ toString code ++ "] " ++ refusalReason code ++ ": "
      ++ Text.quoted path)
  | .bytes content =>
    match String.fromUTF8? content with
    | none => unreadable "invalid utf-8"
    | some source =>
      (runSource opts source).after ⟨"", traceText opts #[.runFile path]⟩

def banner : String :=
  "Exline v0.2.0 REPL\nType 'exit' to quit\n"

def promptMark : String := "> "

inductive Typed where
  | leave
  | nothing
  | source (text : String)
deriving DecidableEq, Repr

def Typed.ofLine (line : List Char) : Typed :=
  let text := String.ofList (Text.trim Text.isBlank line)
  if text = "exit" then leave else if text = "" then nothing else source text

/-- Answers a typed line. The prompt goes on with its mark, unless the line leaves it or makes it
fail. -/
def promptLine (opts : Options) (line : List Char) : Output × Option Ending :=
  match Typed.ofLine line with
  | .leave => (.empty, some (.exit 0))
  | .nothing => (.print promptMark, none)
  | .source text =>
    let o := runSource opts text
    if o.ending.isExit then (o.output ++ .print promptMark, none)
    else (o.output, some o.ending)

/-- Answers typed lines, up to the one that ends the prompt. -/
def promptLines (opts : Options) : List (List Char) → Output × Option Ending
  | [] => (.empty, none)
  | line :: more =>
    match promptLine opts line with
    | (output, some ending) => (output, some ending)
    | (output, none) =>
      let (others, ending) := promptLines opts more
      (output ++ others, ending)

/-- Handles all that is typed at a prompt. The end of the input ends the prompt as well. -/
def runPrompt (opts : Options) (input : String) : Outcome :=
  let (output, ending) := promptLines opts (Text.splitLines (Text.unifyLineEnds input.toList))
  ⟨ending.getD (.exit 0), .print (banner ++ promptMark) ++ output⟩

def usage : String :=
  String.join
    ["exline [OPTIONS] [FILE]\n",
      "\n",
      "Run an Exline (.exl) program, or start a REPL when FILE is omitted.\n",
      "\n",
      "Options:\n",
      "  --strict        Require a newline after every statement\n",
      "  --emit          Print the parsed program as canonical source instead of running it\n",
      "  --debug-tokens  Print the token list before parsing (also: DEBUG_TOKENS=1)\n",
      "  --debug-ast     Print the syntax tree before running (also: DEBUG_AST=1)\n",
      "  --verbose       Log interpreter activity to stderr\n",
      "  --help          Show this help message\n"]

/-- The outcome of a plan, given the files that it may read and what is typed. -/
def Plan.outcome (file : String → FileContent) (input : String) : Plan → Outcome
  | help => ⟨.exit 0, .print usage⟩
  | unknownFlag flag =>
    ⟨.exit Outcome.usageStatus, .complain ("unknown flag '" ++ flag ++ "'")⟩
  | unexpectedArgument argument =>
    ⟨.exit Outcome.usageStatus, .complain ("unexpected argument '" ++ argument ++ "'")⟩
  | runFile opts path => Command.runFile opts path (file path)
  | prompt opts => runPrompt opts input

structure Request where
  arguments : List String
  listTokens : Bool
  outline : Bool
  file : String → FileContent
  input : String

def Request.plan (r : Request) : Plan :=
  .ofArguments (.initial r.listTokens r.outline) "" r.arguments

def Request.outcome (r : Request) : Outcome :=
  r.plan.outcome r.file r.input

end ScriptLang.Command
