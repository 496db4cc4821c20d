import Mathlib.Algebra.GroupWithZero.Nat
import OpenStarry.Lib.Text

/-!
# Shell words

`shlex.split` without comments. A word ends at white space. In POSIX mode quotes and backslashes are
taken away; without it they stay, and a quote that begins a word ends it.
-/

namespace OpenStarry.Lib.Shlex

open Text

/-- What `shlex` cannot read. -/
inductive LexError where
  | noClosingQuotation
  | noEscapedCharacter
  deriving DecidableEq, Repr

/-- Where the lexer is. Behind a backslash it knows the quote it goes back to. -/
inductive LexState where
  | blank
  | word
  | quoted (quote : Char)
  | escaped (back : Option Char)
  deriving DecidableEq, Repr

def isShlexSpace (c : Char) : Bool := c = ' ' || c = '\t' || c = '\r' || c = '\n'

def isQuote (c : Char) : Bool := c = '\'' || c = '"'

def unescaped (back : Option Char) (c : Char) : Str :=
  if back.any fun quote => c ≠ '\\' && c ≠ quote then ['\\', c] else [c]

/-- The words behind the characters that were read of the current one. -/
def splitFrom (posix : Bool) : LexState → Str → Str → Except LexError (List Str)
  | .blank, _, [] => .ok []
  | .word, token, [] => .ok [token]
  | .quoted _, _, [] => .error .noClosingQuotation
  | .escaped _, _, [] => .error .noEscapedCharacter
  | .blank, _, c :: rest =>
      if isShlexSpace c then splitFrom posix .blank [] rest
      else if posix && c = '\\' then splitFrom posix (.escaped none) [] rest
      else if isQuote c then splitFrom posix (.quoted c) (if posix then [] else [c]) rest
      else splitFrom posix .word [c] rest
  | .word, token, c :: rest =>
      if isShlexSpace c then (splitFrom posix .blank [] rest).map (token :: ·)
      else if posix && isQuote c then splitFrom posix (.quoted c) token rest
      else if posix && c = '\\' then splitFrom posix (.escaped none) token rest
      else splitFrom posix .word (token ++ [c]) rest
  | .quoted quote, token, c :: rest =>
      if c = quote then
        if posix then splitFrom posix .word token rest
        else (splitFrom posix .blank [] rest).map ((token ++ [c]) :: ·)
      else if posix && c = '\\' && quote = '"' then
        splitFrom posix (.escaped (some quote)) token rest
      else splitFrom posix (.quoted quote) (token ++ [c]) rest
  | .escaped back, token, c :: rest =>
      splitFrom posix (back.elim .word .quoted) (token ++ unescaped back c) rest

/-- `shlex.split(text, posix=posix)`. -/
def split (posix : Bool) (text : Str) : Except LexError (List Str) := splitFrom posix .blank [] text

example : split true "a 'b c'\\ d \"e\\\"\\f\" ''".toList =
    .ok ["a".toList, "b c d".toList, "e\"\\f".toList, []] := by decide

example : split false "a 'b c'd \"e\"".toList =
    .ok ["a".toList, "'b c'".toList, "d".toList, "\"e\"".toList] := by decide

/-! ### The length of the words -/

def totalLength (words : List Str) : Nat := (words.map List.length).sum

@[simp] theorem totalLength_cons (word : Str) (words : List Str) :
    totalLength (word :: words) = word.length + totalLength words := by
  rw [totalLength, List.map_cons, List.sum_cons, totalLength]

def pending : LexState → Nat
  | .escaped _ => 1
  | _ => 0

theorem length_unescaped_le (back : Option Char) (c : Char) : (unescaped back c).length ≤ 2 := by
  rw [unescaped]
  split_ifs
  · exact Nat.le_refl 2
  · exact Nat.le_succ 1

theorem totalLength_splitFrom_le {posix : Bool} {state : LexState} {token text : Str}
    {words : List Str} (h : splitFrom posix state token text = .ok words) :
    totalLength words ≤ token.length + pending state + text.length := by
  induction text generalizing state token words with
  | nil =>
      cases state with
      | blank =>
          obtain rfl := Except.ok.inj h
          exact Nat.zero_le _
      | word =>
          obtain rfl := Except.ok.inj h
          rw [totalLength_cons]
          exact Nat.le_refl _
      | quoted quote => exact nomatch h
      | escaped back => exact nomatch h
  | cons c rest ih =>
      have hblanks : ∀ {words : List Str}, splitFrom posix .blank [] rest = .ok words →
          totalLength words ≤ rest.length := by
        intro words hrest
        have := ih hrest
        simp only [List.length_nil, pending] at this
        omega
      have hemit : ∀ {word : Str} {words : List Str},
          (splitFrom posix .blank [] rest).map (word :: ·) = .ok words →
            totalLength words ≤ word.length + rest.length := by
        intro word words hmap
        cases hrest : splitFrom posix .blank [] rest with
        | error err =>
            rw [hrest] at hmap
            exact nomatch hmap
        | ok tail =>
            rw [hrest] at hmap
            obtain rfl := Except.ok.inj hmap
            have := hblanks hrest
            rw [totalLength_cons]
            omega
      cases state with
      | blank =>
          rw [splitFrom] at h
          split_ifs at h
          · have := hblanks h
            simp only [List.length_cons, pending]
            omega
          all_goals
            have hrest := ih h
            simp only [List.length_nil, List.length_cons, pending] at hrest ⊢
            omega
      | word =>
          rw [splitFrom] at h
          split_ifs at h
          · have := hemit h
            rw [List.length_cons]
            omega
          all_goals
            have hrest := ih h
            simp only [List.length_append, List.length_nil, List.length_cons, pending] at hrest ⊢
            omega
      | quoted quote =>
          rw [splitFrom] at h
          split_ifs at h
          case neg =>
            have := hemit h
            simp only [List.length_append, List.length_nil, List.length_cons] at this ⊢
            omega
          all_goals
            have hrest := ih h
            simp only [List.length_append, List.length_nil, List.length_cons, pending] at hrest ⊢
            omega
      | escaped back =>
          rw [splitFrom] at h
          have hpending : pending (back.elim LexState.word .quoted) = 0 := by cases back <;> rfl
          have hrest := ih h
          have hlength := length_unescaped_le back c
          rw [hpending, List.length_append] at hrest
          simp only [List.length_cons, pending]
          omega

theorem totalLength_split_le {posix : Bool} {text : Str} {words : List Str}
    (h : split posix text = .ok words) : totalLength words ≤ text.length := by
  have := totalLength_splitFrom_le h
  simpa [pending] using this

end OpenStarry.Lib.Shlex
