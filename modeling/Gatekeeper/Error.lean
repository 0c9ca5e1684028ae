import Gatekeeper.Duration
import Gatekeeper.Expr
import Gatekeeper.Token.Scan
import Gatekeeper.Value

/-!
# Errors

Why a text is no expression, a document no policy, or a decision not reached. Each kind of error
holds its cause, and the words of all messages are here. The last cause of each kind is one reported
by the embedding program in words of its own. Three kinds stand for faults found outside the engine
and carry no words.
-/

set_option autoImplicit false

namespace Gatekeeper

inductive Expected
  | token (kind : TokenKind)
  | operand
  | endOfInput
  deriving DecidableEq, Repr

def Expected.text : Expected → String
  | .token kind => kind.text
  | .operand => "a variable, identifier or literal"
  | .endOfInput => "end of input"

inductive SyntaxFault
  | unexpectedToken (token : Token) (expected : Expected)
  | unexpectedEnd (expected : Expected)
  | reported (text : String)
  deriving DecidableEq, Repr

def SyntaxFault.text : SyntaxFault → String
  | .unexpectedToken token expected =>
    "Unexpected token " ++ token.shown ++ ", expected " ++ expected.text
  | .unexpectedEnd expected => "Unexpected end of input, expected " ++ expected.text
  | .reported text => text

inductive CompilationFault
  | notPrimary (kind : NodeKind)
  | undeclaredVariable (name : String)
  | calleeNotNamed (kind : NodeKind)
  | undefinedFunction (name : String)
  | reported (text : String)
  deriving DecidableEq, Repr

def CompilationFault.text : CompilationFault → String
  | .notPrimary kind => "only primary expressions supported, got " ++ kind.text
  | .undeclaredVariable name => "variable '" ++ name ++ "' does not exist in workflow"
  | .calleeNotNamed kind => "only builtin functions may be called, got " ++ kind.text
  | .undefinedFunction name => "function '" ++ name ++ "' is not defined"
  | .reported text => text

inductive ExecutionFault
  | unresolvedVariable (name : String)
  | memberOfUndefined (key : String)
  | invalidMemberKey (key : Value)
  | notAFunction (callee : Expr)
  | reported (text : String)
  deriving Repr

def ExecutionFault.text : ExecutionFault → String
  | .unresolvedVariable name => "variable '" ++ name ++ "' could not be resolved"
  | .memberOfUndefined key => "cannot read member '" ++ key ++ "' of undefined"
  | .invalidMemberKey key => "invalid member key " ++ key.text
  | .notAFunction callee => "'" ++ callee.text ++ "' is not a function"
  | .reported text => text

inductive DocumentFault
  | blankName
  | blankPath
  | invalidParamName (index : Nat) (name : String)
  | shadowingParam (name : String)
  | repeatedParam (name : String)
  | blankParam (name : String)
  | blankRuleName (index : Nat)
  | blankRule (name : String)
  | reported (text : String)
  deriving DecidableEq, Repr

def DocumentFault.text : DocumentFault → String
  | .blankName => "WorkflowName must not be empty"
  | .blankPath => "Path must not be empty"
  | .invalidParamName index name =>
    "Param " ++ toString index ++ " has invalid name '" ++ name ++
      "' (letters, digits and '_' only)"
  | .shadowingParam name => "Param '" ++ name ++ "' shadows a built-in variable"
  | .repeatedParam name => "Param '" ++ name ++ "' is declared twice"
  | .blankParam name => "Param '" ++ name ++ "' has no expression"
  | .blankRuleName index => "Rule " ++ toString index ++ " has no name"
  | .blankRule name => "Rule '" ++ name ++ "' has no expression"
  | .reported text => text

inductive DuplicateFault
  | sameId (id existing incoming : String)
  | reported (text : String)
  deriving DecidableEq, Repr

def DuplicateFault.text : DuplicateFault → String
  | .sameId id existing incoming =>
    id ++ " (\"" ++ existing ++ "\" and \"" ++ incoming ++ "\")"
  | .reported text => text

inductive ConfigurationFault
  | emptyFolder
  | zeroTimeout
  | zeroThreads
  | blankOverride (setting : String)
  | unreadableFile (file reason : String)
  | unknownPolicy (id : String)
  | reported (text : String)
  deriving DecidableEq, Repr

def ConfigurationFault.text : ConfigurationFault → String
  | .emptyFolder => "policy_dir must not be empty"
  | .zeroTimeout => "load_timeout_ms must be greater than zero"
  | .zeroThreads => "max_compile_threads must be greater than zero"
  | .blankOverride setting => setting ++ " is set but empty"
  | .unreadableFile file reason => "failed to read config file " ++ file ++ ": " ++ reason
  | .unknownPolicy id => "policy '" ++ id ++ "' is not registered"
  | .reported text => text

inductive LoadFault
  | missingFolder (folder : String)
  | loaderLost
  | reported (text : String)
  deriving DecidableEq, Repr

def LoadFault.text : LoadFault → String
  | .missingFolder folder => "policy directory " ++ folder ++ " does not exist"
  | .loaderLost => "loader thread exited without a result"
  | .reported text => text

inductive Error
  | lexical (fault : LexicalFault)
  | malformed (fault : SyntaxFault) (expression : String)
  | compilation (fault : CompilationFault)
  | execution (fault : ExecutionFault)
  | configuration (fault : ConfigurationFault)
  | duplicatePolicy (fault : DuplicateFault)
  | invalidDocument (fault : DocumentFault)
  | inDocument (origin : String) (cause : Error)
  | loadTimeout (milliseconds : Nat)
  | load (fault : LoadFault)
  /-- A file could not be read, or is no UTF-8. -/
  | unreadable
  /-- A text is no JSON, or no JSON of the shape asked for. -/
  | undecodable
  /-- A configuration text is ill-formed, or sets what is not to be set. -/
  | unsettable
  deriving Repr

namespace Error

def root : Error → Error
  | .inDocument _ cause => cause.root
  | e => e

def text : Error → String
  | .lexical fault =>
    "Unexpected character '" ++ fault.character.toString ++ "' at offset " ++ toString fault.offset
  | .malformed fault expression => fault.text ++ " in expression \"" ++ expression ++ "\""
  | .compilation fault => "Compilation error: " ++ fault.text
  | .execution fault => "Execution error: " ++ fault.text
  | .configuration fault => "Configuration error: " ++ fault.text
  | .duplicatePolicy fault => "Duplicate policy id: " ++ fault.text
  | .invalidDocument fault => "Invalid policy document: " ++ fault.text
  | .inDocument origin cause => "Policy document " ++ origin ++ ": " ++ cause.text
  | .loadTimeout milliseconds => "Policy loading timed out after " ++ durationText milliseconds
  | .load fault => "Policy loading failed: " ++ fault.text
  | .unreadable => "I/O error"
  | .undecodable => "Serialization error"
  | .unsettable => "Invalid configuration"

end Error

end Gatekeeper
