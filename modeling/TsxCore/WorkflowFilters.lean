import TsxCore.WorkflowTypes

/-!
# Workflow input filters (`workflow_repository.ts`)

`toLocaleLowerCase('und')` and `safeRegexTest(parseRegex(pattern), text, 100)`,
which throws for a bad pattern and on a timeout, are parameters.
-/

namespace TsxCore.Workflow

open Outcome

inductive FilterResult
  | allowed
  | filtered (reason : String)
  deriving DecidableEq

section Filters

variable (lower : String → String) (safeRegexTest : String → String → Outcome Bool)

def keywordFilterReason (keywords : Option KeywordFilter) (text : String) : Option String :=
  let normalized := lower text
  match keywords with
  | none => none
  | some filter =>
    if filter.blockedKeywords.any (fun word => includes normalized (lower word)) then
      some "BLOCKED_KEYWORD"
    else if !filter.allowedKeywords.isEmpty &&
        !filter.allowedKeywords.any (fun word => includes normalized (lower word)) then
      some "ALLOWED_KEYWORD_MISSING"
    else none

def regexAllowsInput (regex : Option RegexFilter) (text : String) : Outcome Bool :=
  match regex with
  | none => pure true
  | some filter =>
    if filter.patterns.isEmpty then pure true
    else do
      let boundedText :=
        if 8000 < utf16Length text then String.ofList (slice 8000 text.toList) else text
      let results ← filter.patterns.mapM (fun pattern => safeRegexTest pattern boundedText)
      match filter.mode with
      | .any => pure (results.any id)
      | .all => pure (results.all id)

def pathAllowsInput (path : WorkflowExecutionPath) (text contentType : String) :
    Outcome FilterResult :=
  let resources := path.resources
  if (CompiledResources.contentFilter resources).any (fun allowed => contentType ∉ allowed) then
    pure (.filtered "CONTENT_TYPE_FILTERED")
  else match keywordFilterReason lower (CompiledResources.keywordFilter resources) text with
    | some reason => pure (.filtered reason)
    | none => do
      let matched ← regexAllowsInput safeRegexTest (CompiledResources.regex resources) text
      pure (if matched then .allowed else .filtered "REGEX_FILTERED")

end Filters

end TsxCore.Workflow
