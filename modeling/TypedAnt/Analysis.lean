import TypedAnt.Diagnostic
import TypedAnt.Log
import TypedAnt.Program.Parser
import TypedAnt.Token.Lexing
import TypedAnt.Typing
import TypedAnt.Uri

/-!
# Analysis of a document

A text is lexed, parsed and checked, and the first error found is its verdict.  No later
stage runs once an earlier one has failed, except on request: then the statements
that were complete before a syntax error are checked all the same, for the sake of
the names that they bind.
-/

namespace TypedAnt

inductive Verdict where
  | accepted
  | lexical (first : LexError) (more : List LexError)
  | rejected (error : SyntaxError)
  | illTyped (error : TypeError)

def Token.placed (t : Token) (message : String) : String :=
  toString t.line ++ ":" ++ toString t.column ++ ": " ++ message

def Verdict.words : Verdict → String
  | accepted => "ok"
  | lexical _ _ => "lexer error"
  | rejected error => "parse error at " ++ error.token.placed error.message
  | illTyped error => "type error at " ++ error.token.placed error.message

structure Analysis where
  verdict : Verdict
  scopes : Scopes
  /-- Where the check of the statements before a syntax error stopped. -/
  stopped : Option TypeError := none

namespace Analysis

/-- Analyses a text; it fails on integer literals that are too long to be read. -/
def ofText (limit : Nat) (recover : Bool) (text : String) : Except Numeral.Fault Analysis :=
  let lexed := Lexed.ofText text
  match lexed.errors with
  | error :: more => .ok ⟨.lexical error more, .initial, none⟩
  | [] =>
      let parsed := Parsed.ofTokens limit lexed.tokens
      let (outcome, checker) := parsed.program.check limit ⟨.initial, []⟩
      match parsed.failure with
      | some (.numeral fault) => .error fault
      | some (.rejected error) =>
          if recover then
            match outcome with
            | .ok _ => .ok ⟨.rejected error, checker.scopes, none⟩
            | .error stop => .ok ⟨.rejected error, checker.scopes, some stop⟩
          else .ok ⟨.rejected error, .initial, none⟩
      | none =>
          match outcome with
          | .ok _ => .ok ⟨.accepted, checker.scopes, none⟩
          | .error error => .ok ⟨.illTyped error, checker.scopes, none⟩

def diagnostic? (a : Analysis) (units : Units) (text label : String) :
    Except Position.Fault (Option Diagnostic) :=
  match a.verdict with
  | .accepted => .ok none
  | .lexical _ _ => .ok (some (.lexical label))
  | .rejected error => some <$> error.diagnostic units text label
  | .illTyped error => some <$> error.diagnostic units text label

/-!
# What is logged about an analysis
-/

def source : String :=
  "antlsp.analysis"

def log (a : Analysis) (uri label : String) : List Log.Record :=
  let lexical : List Log.Record :=
    match a.verdict with
    | .lexical error more =>
        [⟨.debug, "antlsp.frontend.lexer",
          label ++ ": " ++ toString (more.length + 1) ++ " lexical error(s), first: " ++
            error.message⟩]
    | _ => []
  let stopped : List Log.Record :=
    match a.stopped with
    | some error =>
        [⟨.debug, source, "analyze: partial check stopped at " ++ error.token.placed error.message⟩]
    | none => []
  lexical ++ [⟨.debug, source, "analyze: " ++ uri ++ " → " ++ a.verdict.words⟩] ++ stopped

end Analysis

/-!
# Reports

The report on a document is what the rest of the server sees of its analysis.
-/

structure Report where
  scopes : Scopes
  diagnostic : Option Diagnostic

namespace Report

inductive Failure where
  | uri (fault : Uri.Fault)
  | numeral (fault : Numeral.Fault)
  | position (fault : Position.Fault)
deriving DecidableEq, Repr

def Failure.message : Failure → String
  | uri fault => fault.message
  | numeral fault => fault.message
  | position fault => fault.message

def ok (r : Report) : Bool :=
  r.diagnostic.isNone

def diagnostics (r : Report) : List Diagnostic :=
  r.diagnostic.toList

def ofText (limit : Nat) (units : Units) (recover : Bool) (text uri : String) :
    Logged (Except Failure Report) :=
  match Uri.label uri with
  | .error fault => { value := .error (.uri fault) }
  | .ok label =>
      match Analysis.ofText limit recover text with
      | .error fault => { value := .error (.numeral fault) }
      | .ok analysis =>
          { log := analysis.log uri label
            value :=
              match analysis.diagnostic? units text label with
              | .error fault => .error (.position fault)
              | .ok diagnostic => .ok ⟨analysis.scopes, diagnostic⟩ }

end Report
end TypedAnt
