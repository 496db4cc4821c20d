import Mathlib.Data.List.Infix
import OpenStarry.Lib.Shlex
import OpenStarry.Sandbox.Network

/-!
# Decisions on commands

A shell text is split into segments, each segment into words, and the wrappers in front of the words
are taken away. What is left is looked up in the prefixes of the policy and in the catalogue of
system tools.
-/

namespace OpenStarry.Sandbox

open Lib Lib.Text Lib.Shlex

inductive CommandAction where
  | auto
  | approval
  | deny
  deriving DecidableEq, Repr

structure CommandSegment where
  source : Str
  argv : List Str
  deriving DecidableEq, Repr

structure CommandDecision where
  action : CommandAction
  code : String
  argv : List Str := []
  matchedPrefix : List Str := []
  deriving DecidableEq, Repr

/-- The errors that are raised as `ValueError`. -/
inductive CommandError where
  | lex (error : LexError)
  | unbalancedQuote
  | emptySegment
  | emptyCommand
  | emptyToken
  | controlOperator
  deriving DecidableEq, Repr

inductive Platform where
  | windows
  | darwin
  | linux
  deriving DecidableEq, Repr

/-- What the interpreter and its system say about texts and paths. -/
structure CommandHost where
  lower : Str → Str
  casefold : Str → Str
  casefold_nil : casefold [] = []
  /-- `PurePath(text).name`. -/
  pathName : Str → Str
  pathName_nil : pathName [] = []
  /-- `\w` of regular expressions. -/
  isWord : Char → Bool
  osName : Str

variable (host : CommandHost)

/-! ### Platforms and names -/

/-- `_platform_name`. -/
def platformName (platform : Option Str) : Platform :=
  let raw := host.lower (if platform.getD [] = [] then host.osName else platform.getD [])
  if raw ∈ ["nt", "win32", "windows"].map String.toList then .windows
  else if raw ∈ ["darwin", "mac", "macos"].map String.toList then .darwin
  else .linux

/-- `_normalize_executable`. -/
def normalizeExecutable (platform : Platform) (value : Str) : Str :=
  let name := host.pathName (value.map fun c => if c = '\\' then '/' else c)
  if platform = .windows then
    let name := host.casefold name
    if [".exe", ".cmd", ".bat", ".com"].any fun ending => ending.toList.isSuffixOf name then
      name.take (name.length - 4)
    else name
  else name

/-- `normalize_argv`. -/
def normalizeArgv (platform : Platform) (argv : List Str) : List Str :=
  match argv.filter (· ≠ []) with
  | [] => []
  | first :: rest =>
      let normalized := normalizeExecutable host platform first :: rest
      if platform = .windows then normalized.map host.casefold else normalized

/-! ### Prefixes -/

/-- `_UNSAFE_RULE_TOKEN_RE.search`. -/
def hasControlOperator (token : Str) : Bool :=
  (token.any fun c => c ∈ ";|<>`$()\r\n".toList) || decide (['&', '&'] <:+: token)

/-- `validate_command_prefix`. -/
def validateCommandPrefix (tokens : List Str) : Except CommandError (List Str) :=
  let cleaned := tokens.map strip
  if cleaned = [] ∨ [] ∈ cleaned then .error .emptyToken
  else if cleaned.any hasControlOperator then .error .controlOperator
  else .ok cleaned

/-- `_matches_prefix`. -/
def matchesPrefix (platform : Platform) (argv tokens : List Str) : Except CommandError Bool :=
  (validateCommandPrefix tokens).map fun cleaned =>
    (normalizeArgv host platform cleaned).isPrefixOf (normalizeArgv host platform argv)

/-- `max(matches, key=len, default=())`: the first of the longest. -/
def longest : List (List Str) → List Str
  | [] => []
  | first :: rest =>
      rest.foldl (fun best next => if best.length < next.length then next else best) first

/-- `_best_prefix`. -/
def bestPrefix (platform : Platform) (argv : List Str) (prefixes : List (List Str)) :
    Except CommandError (List Str) :=
  (prefixes.mapM fun tokens => (matchesPrefix host platform argv tokens).map fun found =>
    if found then some tokens else none).map fun found => longest (found.filterMap id)

/-! ### Wrappers -/

/-- An option or an assignment behind `env` or `sudo`. -/
def isWrapperOption (token : Str) : Bool := token.head? = some '-' || decide ('=' ∈ token)

def argumentAfter (isFlag : Str → Bool) : List Str → Option Str
  | flag :: next :: rest => if isFlag flag then some next else argumentAfter isFlag (next :: rest)
  | _ => none

def isOneOf (names : List String) (name : Str) : Bool := name ∈ names.map String.toList

def shellText (executable : Str) (rest : List Str) : Option Str :=
  if executable = "cmd".toList ∧ 2 ≤ rest.length ∧
      isOneOf ["/c", "/k"] (host.casefold (rest.headD [])) then rest[1]?
  else if isOneOf ["powershell", "pwsh"] executable then
    argumentAfter (fun token => isOneOf ["-c", "-command"] (host.casefold token)) rest
  else if isOneOf ["bash", "sh", "zsh", "fish"] executable then
    argumentAfter (isOneOf ["-c", "-lc"]) rest
  else none

def lexWords (platform : Platform) (source : Str) : Except CommandError (List Str) :=
  (split (decide (platform ≠ .windows)) source).mapError .lex

/-- What is left of the words when their wrappers are taken away, in as many rounds as there is
fuel. -/
def stripFrom (platform : Platform) : Nat → List Str → Except CommandError (List Str)
  | _, [] => .ok []
  | 0, first :: rest => .ok (first :: rest)
  | fuel + 1, first :: rest =>
      let executable := normalizeExecutable host platform first
      if isOneOf ["env", "sudo"] executable then
        stripFrom platform fuel (rest.dropWhile isWrapperOption)
      else
        match shellText host executable rest with
        | some source => (lexWords platform source).bind (stripFrom platform fuel)
        | none => .ok (first :: rest)

/-- `_strip_wrappers`: every round takes characters away. -/
def stripWrappers (platform : Platform) (argv : List Str) : Except CommandError (List Str) :=
  stripFrom host platform (totalLength argv + 1) argv

/-- `_tokenize`. -/
def tokenize (platform : Platform) (source : Str) : Except CommandError (List Str) :=
  (lexWords platform source).bind (stripWrappers host platform)

/-! ### Here documents -/

/-- `_HEREDOC_RE` at a place: the delimiter, whether tabs are stripped, and what stands behind. -/
def heredocAt (previous : Option Char) (text : Str) : Option (Str × Bool × Str) :=
  if previous = some '<' ∨ ['<', '<'].isPrefixOf text = false then none
  else
    let stripTabs := (text.drop 2).head? = some '-'
    let inner := if stripTabs then text.drop 3 else text.drop 2
    if inner.head? = some '<' then none
    else
      let quoted := inner.dropWhile isSpace
      let quote := quoted.head?.filter isQuote
      match if quote.isSome then quoted.tail else quoted with
      | [] => none
      | c :: rest =>
          let word := c :: rest.takeWhile host.isWord
          let closed := rest.dropWhile host.isWord
          let behind := if quote.isSome then closed.tail else closed
          if (c.isAlpha || c = '_') = false ∨ (quote.isSome ∧ closed.head? ≠ quote) then none
          else if behind.head?.all fun d => isSpace d || decide (d ∈ ";&|()<>".toList) then
            some (word, decide stripTabs, behind)
          else none

/-- The open quote and the closing brackets of arithmetic that are waited for, innermost first. -/
structure HeredocState where
  quote : Option Char := none
  closers : List Char := []
  deriving DecidableEq, Repr

/-- `_heredoc_delimiters` from a place in the line. -/
def heredocsFrom : Nat → Option Char → Str → HeredocState → Bool →
    List (Str × Bool) × HeredocState
  | 0, _, _, state, _ => ([], state)
  | _ + 1, _, [], state, _ => ([], state)
  | fuel + 1, previous, c :: rest, state, wordStart =>
      if state.quote = some '\'' then
        let quote := if c = '\'' then none else state.quote
        heredocsFrom fuel (some c) rest { state with quote := quote } wordStart
      else if c = '\\' then heredocsFrom fuel rest.head? rest.tail state false
      else if state.quote = some '"' then
        let quote := if c = '"' then none else state.quote
        heredocsFrom fuel (some c) rest { state with quote := quote } wordStart
      else if state.closers ≠ [] then
        let closers :=
          if c = '(' then ')' :: state.closers
          else if c = '[' then ']' :: state.closers
          else if state.closers.head? = some c then state.closers.tail
          else state.closers
        heredocsFrom fuel (some c) rest { state with closers := closers } wordStart
      else if "$((".toList.isPrefixOf (c :: rest) then
        heredocsFrom fuel (some '(') (rest.drop 2) { state with closers := [')', ')'] } false
      else if "$[".toList.isPrefixOf (c :: rest) then
        heredocsFrom fuel (some '[') (rest.drop 1) { state with closers := [']'] } false
      else if wordStart && "((".toList.isPrefixOf (c :: rest) then
        heredocsFrom fuel (some '(') (rest.drop 1) { state with closers := [')', ')'] } false
      else if c = '#' ∧ wordStart = true then ([], state)
      else if isQuote c then heredocsFrom fuel (some c) rest { state with quote := some c } false
      else
        match heredocAt host previous (c :: rest) with
        | some (delimiter, stripTabs, behind) =>
            let found := heredocsFrom fuel none behind state false
            ((delimiter, stripTabs) :: found.1, found.2)
        | none =>
            heredocsFrom fuel (some c) rest state (isSpace c || decide (c ∈ ";&|()<>".toList))

/-- `_heredoc_delimiters`. -/
def heredocDelimiters (line : Str) (state : HeredocState) : List (Str × Bool) × HeredocState :=
  heredocsFrom host line.length none line state
    (decide (state.quote = none ∧ state.closers = []))

/-- The lines that are no body of a here document. -/
def commandLines : List (Str × Bool) → HeredocState → List Str → List Str
  | _, _, [] => []
  | (delimiter, stripTabs) :: waiting, state, line :: lines =>
      let candidate := if stripTabs then line.dropWhile (· = '\t') else line
      if candidate = delimiter then commandLines waiting state lines
      else commandLines ((delimiter, stripTabs) :: waiting) state lines
  | [], state, line :: lines =>
      let found := heredocDelimiters host line state
      line :: commandLines found.1 found.2 lines

/-- `strip_shell_heredoc_bodies`. -/
def stripShellHeredocBodies (command : Str) : Str :=
  if ['<', '<'] <:+: command then unlines (commandLines host [] {} (command.splitOn '\n'))
  else command

/-! ### Segments -/

def isBoundary (c : Char) : Bool := c = ';' || c = '&' || c = '|' || c = '\n'

def addSegment (segment : Str) (segments : List Str) : List Str :=
  if strip segment = [] then segments else strip segment :: segments

/-- The segments behind the characters that were read of the current one. -/
def segmentsFrom : Option Char → Bool → Str → Str → Except CommandError (List Str)
  | quote, _, segment, [] =>
      if quote.isSome then .error .unbalancedQuote else .ok (addSegment segment [])
  | quote, true, segment, c :: rest => segmentsFrom quote false (segment ++ [c]) rest
  | quote, false, segment, c :: rest =>
      if c = '\\' ∧ quote ≠ some '\'' then segmentsFrom quote true (segment ++ [c]) rest
      else if quote.isSome then
        segmentsFrom (if quote = some c then none else quote) false (segment ++ [c]) rest
      else if isQuote c then segmentsFrom (some c) false (segment ++ [c]) rest
      else
        match c, rest with
        | '&', '&' :: rest => (segmentsFrom none false [] rest).map (addSegment segment)
        | '|', '|' :: rest => (segmentsFrom none false [] rest).map (addSegment segment)
        | c, rest =>
            if isBoundary c then (segmentsFrom none false [] rest).map (addSegment segment)
            else segmentsFrom none false (segment ++ [c]) rest

/-- `_split_segments`. -/
def splitSegments (command : Str) (stripHeredocs : Bool) : Except CommandError (List Str) :=
  segmentsFrom none false []
    (if stripHeredocs then stripShellHeredocBodies host command else command)

def parseSegment (platform : Platform) (source : Str) : Except CommandError CommandSegment :=
  (tokenize host platform source).bind fun argv =>
    if argv = [] then .error .emptySegment else .ok { source := source, argv := argv }

/-- `parse_shell_segments`. -/
def parseShellSegments (platform : Option Str) (command : Str) :
    Except CommandError (List CommandSegment) := do
  let target := platformName host platform
  let sources ← splitSegments host command (decide (target ≠ .windows))
  let parsed ← sources.mapM (parseSegment host target)
  if parsed = [] then throw .emptyCommand else return parsed

/-! ### Decisions -/

def systemToolCatalog : Platform → List String
  | .windows => ["wsl", "wmic", "sc", "reg", "schtasks"]
  | .darwin => ["launchctl", "crontab", "sudo"]
  | .linux => ["systemctl", "crontab", "sudo"]

/-- `_is_system_tool`. -/
def isSystemTool (platform : Platform) (argv : List Str) : Bool :=
  match argv with
  | [] => false
  | first :: _ => isOneOf (systemToolCatalog platform) (normalizeExecutable host platform first)

/-- Whether the words begin as `git push`. -/
def isGitPush (platform : Platform) (argv : List Str) : Bool :=
  (normalizeArgv host platform argv).take 2 == ["git".toList, "push".toList]

/-- What is decided when no prefix matches. -/
def decideTool (platform : Platform) (tokens : List Str) (systemTools : SystemTools) :
    CommandDecision :=
  if isSystemTool host platform tokens ∧ systemTools = .disabled then
    { action := .deny, code := "system_tool_disabled", argv := tokens }
  else if isSystemTool host platform tokens ∧ systemTools = .prompt then
    { action := .approval, code := "system_tool_prompt", argv := tokens }
  else if isGitPush host platform tokens then
    { action := .approval, code := "builtin_git_push", argv := tokens }
  else { action := .auto, code := "default_auto", argv := tokens }

/-- `decide_command`. -/
def decideCommand (platform : Option Str) (argv : List Str) (policy : SandboxPolicy) :
    Except CommandError CommandDecision := do
  let target := platformName host platform
  let tokens ← stripWrappers host target argv
  if tokens = [] then return { action := .approval, code := "command_parse_failed" }
  let auto ← bestPrefix host target tokens policy.commands.autoAllowPrefixes
  if auto ≠ [] then
    return { action := .auto, code := "user_auto_allow", argv := tokens, matchedPrefix := auto }
  let approval ← bestPrefix host target tokens policy.commands.requireApprovalPrefixes
  if approval ≠ [] then
    return { action := .approval, code := "user_approval_prefix", argv := tokens
             matchedPrefix := approval }
  return decideTool host target tokens policy.commands.systemTools

def strictest (decisions : List CommandDecision) : CommandDecision :=
  ((decisions.find? fun decision => decision.action = .deny).or
    (decisions.find? fun decision => decision.action = .approval)).getD
      { action := .auto, code := "default_auto" }

/-- `decide_shell_command`. -/
def decideShellCommand (platform : Option Str) (command : Str) (policy : SandboxPolicy) :
    Except CommandError CommandDecision :=
  match parseShellSegments host platform command with
  | .error _ => .ok { action := .approval, code := "command_parse_failed" }
  | .ok segments =>
      (segments.mapM fun segment => decideCommand host platform segment.argv policy).map strictest

end OpenStarry.Sandbox
