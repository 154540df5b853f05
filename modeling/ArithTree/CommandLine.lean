import ArithTree.Expression

/-!
# The command line

The program evaluates one expression and prints its value and its postfix form, and its tree if
that is asked for. The arguments are read in order. A word that is not understood ends the program
at once, and so does a request for the version; whether the options agree with each other is looked
at when all words have been read.

What was put on record on the way is shown on the standard error, ahead of a report, as far as that
was asked for. How it is shown is a convention of the surroundings, as is the wording of the help
and of an objection to the arguments.
-/

namespace ArithTree.CommandLine

inductive Setting where
  | tree
  | verbose
  | quiet
  | version
  | help
  deriving DecidableEq, Repr

def longSetting? : String → Option Setting
  | "tree" => some .tree
  | "verbose" => some .verbose
  | "quiet" => some .quiet
  | "version" => some .version
  | "help" => some .help
  | _ => none

def shortSetting? : Char → Option Setting
  | 'v' => some .verbose
  | 'q' => some .quiet
  | 'V' => some .version
  | 'h' => some .help
  | _ => none

structure Arguments where
  expression : Option String
  /-- how often each of the options was given -/
  trees : Nat
  verbose : Nat
  quiet : Nat
  deriving DecidableEq, Repr

/-- Why the program ends before it comes to an expression. -/
inductive Ending where
  | misuse
  | version
  | help
  deriving DecidableEq, Repr

namespace Arguments

def none : Arguments := ⟨.none, 0, 0, 0⟩

def heed (a : Arguments) : Setting → Except Ending Arguments
  | .tree => .ok { a with trees := a.trees + 1 }
  | .verbose => .ok { a with verbose := a.verbose + 1 }
  | .quiet => .ok { a with quiet := a.quiet + 1 }
  | .version => .error .version
  | .help => .error .help

def heed? (a : Arguments) : Option Setting → Except Ending Arguments
  | some setting => a.heed setting
  | .none => .error .misuse

def takeExpression (a : Arguments) (word : String) : Except Ending Arguments :=
  match a.expression with
  | .none => .ok { a with expression := some word }
  | some _ => .error .misuse

/-- Heeds a word: an option by its name, options by their letters, or an expression. A single
hyphen is an expression. -/
def heedWord (a : Arguments) (word : String) : Except Ending Arguments :=
  match word.toList with
  | '-' :: '-' :: name => a.heed? (longSetting? (String.ofList name))
  | '-' :: letter :: letters =>
      (letter :: letters).foldlM (fun a letter => a.heed? (shortSetting? letter)) a
  | _ => a.takeExpression word

/-- Heeds all words. Behind two hyphens alone, every word is an expression. -/
def heedAll (a : Arguments) : List String → Except Ending Arguments
  | [] => .ok a
  | word :: rest =>
      if word = "--" then rest.foldlM takeExpression a
      else (a.heedWord word).bind fun a => a.heedAll rest

def isConsistent (a : Arguments) : Bool :=
  a.trees ≤ 1 && (a.verbose = 0 || a.quiet = 0)

def read (words : List String) : Except Ending Arguments :=
  (Arguments.none.heedAll words).bind fun a =>
    if a.isConsistent then .ok a else .error .misuse

end Arguments

/-! ## The log -/

inductive Entry where
  | started (source : String)
  | parsed (record : Record)
  deriving DecidableEq, Repr

namespace Entry

def level : Entry → Level
  | started _ => .info
  | parsed record => record.level

def target : Entry → String
  | started _ => "expression_tree_cli"
  | parsed record => record.target

def text : Entry → String
  | started source => "Parsing " ++ Text.quote source
  | parsed record => record.text

end Entry

/-- What was put on record, and how often more of it or less of it was asked for. -/
structure Log where
  entries : List Entry
  verbose : Nat
  quiet : Nat
  deriving DecidableEq, Repr

/-- What the program takes over from its surroundings. -/
structure Conventions where
  /-- the answer to a request for help -/
  help : String
  /-- what is said to words that are not understood -/
  objection (words : List String) : String
  /-- whether an entry of a level is shown, by how often the options were given -/
  shows (verbose quiet : Nat) (level : Level) : Bool
  /-- an entry as it is shown; its number stands for the time, which may be shown with it -/
  line (number : Nat) (entry : Entry) : String

def Log.text (c : Conventions) (log : Log) : String :=
  let shown := log.entries.filter fun entry => c.shows log.verbose log.quiet entry.level
  String.join (shown.mapIdx c.line)

/-! ## The outcome -/

/-- What is said about the arguments in place of an answer. -/
inductive Notice where
  | help
  | objection (words : List String)
  deriving DecidableEq, Repr

structure Outcome where
  code : UInt8
  /-- the answer -/
  printed : String
  /-- the report of a failure -/
  complaint : String
  log : Log
  notice : Option Notice
  deriving DecidableEq, Repr

namespace Outcome

def standardOutput (c : Conventions) (outcome : Outcome) : String :=
  match outcome.notice with
  | some .help => c.help
  | _ => outcome.printed

def standardError (c : Conventions) (outcome : Outcome) : String :=
  match outcome.notice with
  | some (.objection words) => c.objection words
  | _ => outcome.log.text c ++ outcome.complaint

end Outcome

def defaultExpression : String := "32 * 3 + 2 / 5 ^    7"

def Arguments.source (a : Arguments) : String := a.expression.getD defaultExpression

def version : String := "expression-tree-cli 0.1.0"

/-- The outcome if the words ask for no evaluation. No log is kept before one begins. -/
def conclude (words : List String) (ending : Ending) : Outcome :=
  let log : Log := ⟨[], 0, 0⟩
  match ending with
  | .misuse => ⟨2, "", "", log, some (.objection words)⟩
  | .version => ⟨0, version ++ "\n", "", log, none⟩
  | .help => ⟨0, "", "", log, some .help⟩

def causeLines : List String → List String
  | [single] => ["    " ++ single]
  | several => several.zipIdx.map fun (cause, number) => "    " ++ toString number ++ ": " ++ cause

def complaint (headline : String) (failure : Failure) : String :=
  "Error: " ++ headline ++ "\n\nCaused by:\n" ++
    String.join ((causeLines failure.layers).map fun line => line ++ "\n")

def fail (log : Log) (headline : String) (failure : Failure) : Outcome :=
  ⟨1, "", complaint headline failure, log, none⟩

def drawing (e : Expression) : String :=
  match e.root with
  | some root => root.drawing
  | none => ""

def Arguments.log (a : Arguments) (records : List Record) : Log :=
  ⟨.started a.source :: records.map .parsed, a.verbose, a.quiet⟩

def evaluate (a : Arguments) : Outcome :=
  let parsing := Expression.parseRecorded a.source
  let log := a.log parsing.records
  match parsing.result with
  | .error failure => fail log ("could not parse expression " ++ Text.quote a.source) failure
  | .ok e =>
      match e.evaluate with
      | .error failure => fail log "could not evaluate expression" failure
      | .ok x =>
          ⟨0, Numeral.write x ++ "\n" ++ e.line ++ "\n" ++ (if 0 < a.trees then drawing e else ""),
            "", log, none⟩

def run (words : List String) : Outcome :=
  match Arguments.read words with
  | .error ending => conclude words ending
  | .ok a => evaluate a

/-! ## Conventions -/

def usage : String := "USAGE:\n    expression-tree-cli [OPTIONS] [EXPRESSION]\n"

/-- Each request to be verbose shows one more level. The time is not shown. -/
def Conventions.plain : Conventions where
  help := version ++ "\nEvaluates an arithmetic expression and prints it in postfix notation\n\n" ++
    usage
  objection _ := "error: the arguments are not understood\n\n" ++ usage
  shows verbose _ level := level.depth ≤ verbose
  line _ entry :=
    let label := String.ofList (entry.level.label.toList.rightpad 5 ' ')
    "[" ++ label ++ " " ++ entry.target ++ "] " ++ entry.text ++ "\n"

end ArithTree.CommandLine
