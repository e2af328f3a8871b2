import TypedAnt.Analysis

/-!
# Completion

The names offered at a position are those that the analysis of the text has found and
that start with what has been typed so far.  A broken text is analysed as far as it
can be, so there are names to offer while the user is still writing.
-/

namespace TypedAnt
namespace Completion

def names (scopes : Scopes) (includeBuiltins : Bool) (stem : String) : List String :=
  scopes.visible.names.filter fun name =>
    stem.toList.isPrefixOf name.toList && (includeBuiltins || !scopes.isBuiltin name)

def record (uri stem : String) (count : Nat) (ok : Bool) : Log.Record :=
  ⟨.debug, "antlsp.handlers.completion",
    "get_completions: " ++ uri ++ " prefix=" ++ Text.quote stem ++ " → " ++ toString count ++
      " items (analysis ok=" ++ (if ok then "True" else "False") ++ ")"⟩

def atPosition (limit : Nat) (units : Units) (includeBuiltins : Bool) (text uri : String)
    (position : Position) : Logged (Except Report.Failure (List String)) :=
  let report := Report.ofText limit units true text uri
  match report.value with
  | .error failure => ⟨report.log, .error failure⟩
  | .ok r =>
      let stem := position.stem units text
      let found := names r.scopes includeBuiltins stem
      ⟨report.log ++ [record uri stem found.length r.ok], .ok found⟩

end Completion
end TypedAnt
