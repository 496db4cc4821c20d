import Mathlib.Algebra.GroupWithZero.Nat
import OpenStarry.Lib.LinePieces

/-!
# Chunks of a text

A file is indexed in chunks of lines, each of about so many tokens, and each chunk begins with the
last lines of the one before it. Wherever a chunk begins, no line that says something is left out.
-/

namespace OpenStarry.MemorySync

open Lib Text

/-! ### Tokens -/

def cjkRanges : List (Nat × Nat) :=
  [(0x4E00, 0x9FFF), (0x3040, 0x309F), (0x30A0, 0x30FF), (0xAC00, 0xD7AF), (0x3400, 0x4DBF),
    (0xF900, 0xFAFF)]

def isCjk (c : Char) : Bool := cjkRanges.any fun range => range.1 ≤ c.toNat && c.toNat ≤ range.2

def estimateTokens (text : Str) : Nat :=
  if text = [] then 0
  else
    let cjkCount := text.countP isCjk
    let asciiCount := text.length - cjkCount
    max 1 (cjkCount + asciiCount / 4)

/-- The lines from `start` on and before `stop`. -/
def span (lines : List Str) (start stop : Nat) : List Str := (lines.take stop).drop start

def spanTokens (lines : List Str) (start stop : Nat) : Nat :=
  ((span lines start stop).map estimateTokens).sum

/-! ### Cutting -/

structure Chunk where
  startLine : Nat
  endLine : Nat
  body : Str
  deriving DecidableEq

/-- A chunk ends before the line `stop`, and the chunk after it begins with the line `next`. -/
structure Cut where
  start : Nat
  stop : Nat
  next : Nat
  deriving DecidableEq

section

variable (lines : List Str) (chunkTokens chunkOverlap : Nat)

/-- The lines before the counter are tried from the last one back to `start`. -/
def rewindFrom (start i : Nat) : Nat → Nat → Nat
  | 0, _ => i
  | j + 1, tokensBack =>
      if j < start then i
      else if chunkOverlap ≤ tokensBack + estimateTokens (lines.getD j []) then j
      else rewindFrom start i j (tokensBack + estimateTokens (lines.getD j []))

/-- Where the chunk behind one of the lines from `start` on and before `i` begins. -/
def rewind (start i : Nat) : Nat := rewindFrom lines chunkOverlap start i i 0

/-- The cuts made from the line `i` on, and the begin of the last chunk. -/
def cutsFrom : List Str → (i start tokens : Nat) → List Cut × Nat
  | [], _, start, _ => ([], start)
  | line :: rest, i, start, tokens =>
      let lineTokens := estimateTokens line
      if chunkTokens < tokens + lineTokens ∧ 0 < tokens then
        let next := rewind lines chunkOverlap start i
        let later := cutsFrom rest (i + 1) next (spanTokens lines next i + lineTokens)
        (⟨start, i, next⟩ :: later.1, later.2)
      else cutsFrom rest (i + 1) start (tokens + lineTokens)

def cuts : List Cut × Nat := cutsFrom lines chunkTokens chunkOverlap lines 0 0 0

def ranges : List (Nat × Nat) :=
  let found := cuts lines chunkTokens chunkOverlap
  found.1.map (fun cut => (cut.start, cut.stop)) ++
    if found.2 < lines.length then [(found.2, lines.length)] else []

end

def chunkOf (lines : List Str) (range : Nat × Nat) : Option Chunk :=
  let body := strip (span lines range.1 range.2).flatten
  if body = [] then none else some ⟨range.1 + 1, range.2, body⟩

def chunkText (text : Str) (chunkTokens chunkOverlap : Nat) : List Chunk :=
  let lines := splitlinesKeepends text
  let chunks := (ranges lines chunkTokens chunkOverlap).filterMap (chunkOf lines)
  if chunks = [] then [⟨1, lines.length, strip text⟩] else chunks

/-! ### How cuts follow each other -/

section

variable {lines : List Str} {chunkTokens chunkOverlap start i tokens : Nat}

theorem rewindFrom_bounds (j back : Nat) (hj : j ≤ i) (hstart : start ≤ i) :
    start ≤ rewindFrom lines chunkOverlap start i j back ∧
      rewindFrom lines chunkOverlap start i j back ≤ i := by
  induction j generalizing back with
  | zero => exact ⟨hstart, Nat.le_refl i⟩
  | succ j ih =>
      rw [rewindFrom]
      split_ifs with hless
      · exact ⟨hstart, Nat.le_refl i⟩
      · exact ⟨Nat.le_of_not_lt hless, Nat.le_of_succ_le hj⟩
      · exact ih _ (Nat.le_of_succ_le hj)

theorem rewind_bounds (hstart : start ≤ i) :
    start ≤ rewind lines chunkOverlap start i ∧ rewind lines chunkOverlap start i ≤ i :=
  rewindFrom_bounds i 0 (Nat.le_refl i) hstart

def Linked : Nat → List Cut → Nat → Prop
  | start, [], last => last = start
  | start, cut :: rest, last =>
      cut.start = start ∧ cut.start < cut.stop ∧ cut.start ≤ cut.next ∧ cut.next ≤ cut.stop ∧
        Linked cut.next rest last

theorem linked_cutsFrom {rest : List Str} (hstart : start ≤ i) (htokens : 0 < tokens → start < i) :
    Linked start (cutsFrom lines chunkTokens chunkOverlap rest i start tokens).1
      (cutsFrom lines chunkTokens chunkOverlap rest i start tokens).2 := by
  induction rest generalizing i start tokens with
  | nil => rfl
  | cons line rest ih =>
      rw [cutsFrom]
      split_ifs with hcut
      · obtain ⟨hlow, hhigh⟩ := @rewind_bounds lines chunkOverlap start i hstart
        exact ⟨rfl, htokens hcut.2, hlow, hhigh,
          ih (Nat.le_succ_of_le hhigh) fun _ => Nat.lt_succ_of_le hhigh⟩
      · exact ih (Nat.le_succ_of_le hstart) fun _ => Nat.lt_succ_of_le hstart

theorem stops_cutsFrom {rest : List Str} (hrest : i + rest.length = lines.length) :
    (∀ cut ∈ (cutsFrom lines chunkTokens chunkOverlap rest i start tokens).1,
        i ≤ cut.stop ∧ cut.stop < lines.length) ∧
      (cutsFrom lines chunkTokens chunkOverlap rest i start tokens).1.Pairwise
        fun a b => a.stop < b.stop := by
  induction rest generalizing i start tokens with
  | nil => exact ⟨fun cut hcut => absurd hcut List.not_mem_nil, List.Pairwise.nil⟩
  | cons line rest ih =>
      rw [List.length_cons] at hrest
      have hlater : i + 1 + rest.length = lines.length := by omega
      rw [cutsFrom]
      split_ifs with hcut
      · obtain ⟨hbounds, hpairwise⟩ := @ih (rewind lines chunkOverlap start i) (i + 1)
          (spanTokens lines (rewind lines chunkOverlap start i) i + estimateTokens line) hlater
        refine ⟨List.forall_mem_cons.mpr ⟨⟨Nat.le_refl i, ?_⟩, ?_⟩,
          List.pairwise_cons.mpr ⟨?_, hpairwise⟩⟩
        · show i < lines.length
          omega
        · intro cut hin
          exact ⟨Nat.le_of_succ_le (hbounds cut hin).1, (hbounds cut hin).2⟩
        · intro cut hin
          exact (hbounds cut hin).1
      · obtain ⟨hbounds, hpairwise⟩ := @ih start (i + 1) (tokens + estimateTokens line) hlater
        exact ⟨fun cut hin => ⟨Nat.le_of_succ_le (hbounds cut hin).1, (hbounds cut hin).2⟩, hpairwise⟩

theorem last_lt_cutsFrom {rest : List Str} (hstart : start ≤ i) (hpos : start < lines.length)
    (hrest : i + rest.length = lines.length) :
    (cutsFrom lines chunkTokens chunkOverlap rest i start tokens).2 < lines.length := by
  induction rest generalizing i start tokens with
  | nil => exact hpos
  | cons line rest ih =>
      rw [List.length_cons] at hrest
      rw [cutsFrom]
      split_ifs with hcut
      · obtain ⟨-, hhigh⟩ := @rewind_bounds lines chunkOverlap start i hstart
        exact ih (by omega) (by omega) (by omega)
      · exact ih (by omega) hpos (by omega)

theorem covered_of_linked {cuts : List Cut} {last k : Nat} (h : Linked start cuts last)
    (hk : start ≤ k) (hend : k < lines.length) :
    ∃ range ∈ cuts.map (fun cut => (cut.start, cut.stop)) ++
        (if last < lines.length then [(last, lines.length)] else []),
      range.1 ≤ k ∧ k < range.2 := by
  induction cuts generalizing start with
  | nil =>
      have hlast : last = start := h
      refine ⟨(last, lines.length), ?_, hlast ▸ hk, hend⟩
      rw [List.map_nil, List.nil_append, if_pos (by omega)]
      exact List.mem_singleton_self _
  | cons cut rest ih =>
      obtain ⟨hbegin, -, -, hnext, hrest⟩ := h
      by_cases hin : k < cut.stop
      · exact ⟨(cut.start, cut.stop), List.mem_cons_self, hbegin ▸ hk, hin⟩
      · obtain ⟨range, hrange, hbounds⟩ := ih hrest (by omega)
        exact ⟨range, List.mem_cons_of_mem _ hrange, hbounds⟩

theorem linked_starts {cuts : List Cut} {last : Nat} (h : Linked start cuts last) :
    start ≤ last ∧ (∀ cut ∈ cuts, start ≤ cut.start ∧ cut.start < cut.stop ∧ cut.start ≤ last) ∧
      cuts.Pairwise fun a b => a.start ≤ b.start := by
  induction cuts generalizing start with
  | nil => exact ⟨Nat.le_of_eq h.symm, fun cut hcut => absurd hcut List.not_mem_nil, List.Pairwise.nil⟩
  | cons cut rest ih =>
      obtain ⟨hbegin, hne, hnext, -, hrest⟩ := h
      obtain ⟨hlast, hall, hpairwise⟩ := ih hrest
      refine ⟨by omega, List.forall_mem_cons.mpr ⟨⟨Nat.le_of_eq hbegin.symm, hne, by omega⟩, ?_⟩,
        List.pairwise_cons.mpr ⟨?_, hpairwise⟩⟩
      · intro other hother
        have hbounds := hall other hother
        omega
      · intro other hother
        have hbounds := hall other hother
        omega

end

/-! ### The ranges of a text -/

section

variable {lines : List Str} {chunkTokens chunkOverlap k : Nat} {range : Nat × Nat}

theorem linked_cuts : Linked 0 (cuts lines chunkTokens chunkOverlap).1
    (cuts lines chunkTokens chunkOverlap).2 :=
  linked_cutsFrom (Nat.le_refl 0) fun h => absurd h (Nat.lt_irrefl 0)

theorem range_bounds (h : range ∈ ranges lines chunkTokens chunkOverlap) :
    range.1 < range.2 ∧ range.2 ≤ lines.length := by
  have hstops := @stops_cutsFrom lines chunkTokens chunkOverlap 0 0 0 lines (Nat.zero_add _)
  obtain hcut | hlast := List.mem_append.mp h
  · obtain ⟨cut, hin, rfl⟩ := List.mem_map.mp hcut
    obtain ⟨-, hstarts, -⟩ := linked_starts (@linked_cuts lines chunkTokens chunkOverlap)
    exact ⟨(hstarts cut hin).2.1, Nat.le_of_lt (hstops.1 cut hin).2⟩
  · split_ifs at hlast with hpos
    · rw [List.mem_singleton.mp hlast]
      exact ⟨hpos, Nat.le_refl _⟩
    · cases hlast

theorem ranges_pairwise :
    (ranges lines chunkTokens chunkOverlap).Pairwise fun a b => a.1 ≤ b.1 ∧ a.2 < b.2 := by
  obtain ⟨hstops, hordered⟩ :=
    @stops_cutsFrom lines chunkTokens chunkOverlap 0 0 0 lines (Nat.zero_add _)
  obtain ⟨-, hstarts, hsorted⟩ := linked_starts (@linked_cuts lines chunkTokens chunkOverlap)
  rw [ranges, List.pairwise_append]
  refine ⟨?_, ?_, ?_⟩
  · rw [List.pairwise_map]
    exact (hsorted.and hordered).imp fun h => h
  · split_ifs
    · exact List.pairwise_singleton _ _
    · exact List.Pairwise.nil
  · intro a ha b hb
    obtain ⟨cut, hcut, rfl⟩ := List.mem_map.mp ha
    split_ifs at hb with hpos
    · rw [List.mem_singleton.mp hb]
      exact ⟨(hstarts cut hcut).2.2, (hstops cut hcut).2⟩
    · cases hb

theorem exists_range (hk : k < lines.length) :
    ∃ range ∈ ranges lines chunkTokens chunkOverlap, range.1 ≤ k ∧ k < range.2 :=
  covered_of_linked linked_cuts (Nat.zero_le k) hk

/-! ### The chunks of a range -/

theorem strip_eq_nil_iff {s : Str} : strip s = [] ↔ ∀ c ∈ s, isSpace c = true := by
  constructor
  · intro h c hc
    by_contra hvisible
    obtain ⟨front, back, hsplit⟩ := List.append_of_mem hc
    have hfront : lstrip s ≠ [] := by
      rw [lstrip, Ne, List.dropWhile_eq_nil_iff]
      exact fun hall => hvisible (hall c hc)
    obtain ⟨d, rest, hrest⟩ := List.exists_cons_of_ne_nil hfront
    have hd : isSpace d = false := by
      have hhead := List.head?_dropWhile_not isSpace s
      rw [show s.dropWhile isSpace = d :: rest from hrest] at hhead
      simpa using hhead
    obtain ⟨tail, htail⟩ := strip_cons hd rest
    have hsame : strip s = strip (d :: rest) := by
      rw [strip, hrest, strip, lstrip, List.dropWhile_cons_of_neg (by simp [hd])]
    rw [hsame, htail] at h
    cases h
  · intro h
    have hfront : lstrip s = [] := List.dropWhile_eq_nil_iff.mpr h
    rw [strip, hfront]
    rfl

theorem mem_span {start stop : Nat} (hstart : start ≤ k) (hstop : k < stop) (hk : k < lines.length) :
    lines[k] ∈ span lines start stop := by
  rw [span, List.mem_iff_getElem]
  refine ⟨k - start, ?_, ?_⟩
  · rw [List.length_drop, List.length_take]
    omega
  · rw [List.getElem_drop, List.getElem_take]
    congr 1
    omega

theorem chunkOf_of_said (hk : k < lines.length) (hsaid : strip lines[k] ≠ [])
    (hstart : range.1 ≤ k) (hstop : k < range.2) :
    chunkOf lines range =
      some ⟨range.1 + 1, range.2, strip (span lines range.1 range.2).flatten⟩ := by
  rw [chunkOf]
  apply if_neg
  intro hblank
  apply hsaid
  rw [strip_eq_nil_iff] at hblank ⊢
  intro c hc
  exact hblank c (List.mem_flatten.mpr ⟨lines[k], mem_span hstart hstop hk, hc⟩)

theorem chunkOf_eq_some {chunk : Chunk} (h : chunkOf lines range = some chunk) :
    chunk = ⟨range.1 + 1, range.2, strip (span lines range.1 range.2).flatten⟩ := by
  rw [chunkOf] at h
  split_ifs at h
  exact (Option.some.inj h).symm

end

/-! ### The chunks of a text -/

section

variable {text : Str} {chunkTokens chunkOverlap : Nat}

theorem chunkText_of_said (h : ∃ line ∈ splitlinesKeepends text, strip line ≠ []) :
    chunkText text chunkTokens chunkOverlap =
      (ranges (splitlinesKeepends text) chunkTokens chunkOverlap).filterMap
        (chunkOf (splitlinesKeepends text)) := by
  obtain ⟨line, hline, hsaid⟩ := h
  obtain ⟨k, hk, rfl⟩ := List.mem_iff_getElem.mp hline
  obtain ⟨range, hrange, hstart, hstop⟩ := @exists_range _ chunkTokens chunkOverlap k hk
  have hmem := List.mem_filterMap.mpr ⟨range, hrange, chunkOf_of_said hk hsaid hstart hstop⟩
  exact if_neg (List.ne_nil_of_mem hmem)

theorem mem_chunkText {chunk : Chunk} (h : chunk ∈ chunkText text chunkTokens chunkOverlap) :
    (∃ range ∈ ranges (splitlinesKeepends text) chunkTokens chunkOverlap,
        chunk = ⟨range.1 + 1, range.2,
          strip (span (splitlinesKeepends text) range.1 range.2).flatten⟩) ∨
      (∀ line ∈ splitlinesKeepends text, strip line = []) ∧
        chunk = ⟨1, (splitlinesKeepends text).length, strip text⟩ := by
  by_cases hsaid : ∃ line ∈ splitlinesKeepends text, strip line ≠ []
  · left
    rw [chunkText_of_said hsaid] at h
    obtain ⟨range, hrange, hchunk⟩ := List.mem_filterMap.mp h
    exact ⟨range, hrange, chunkOf_eq_some hchunk⟩
  · rw [chunkText] at h
    split_ifs at h with hnone
    · right
      refine ⟨?_, List.mem_singleton.mp h⟩
      intro line hline
      by_contra hline'
      exact hsaid ⟨line, hline, hline'⟩
    · left
      obtain ⟨range, hrange, hchunk⟩ := List.mem_filterMap.mp h
      exact ⟨range, hrange, chunkOf_eq_some hchunk⟩

theorem chunkText_pairwise :
    (chunkText text chunkTokens chunkOverlap).Pairwise fun a b =>
      a.startLine ≤ b.startLine ∧ a.endLine < b.endLine := by
  rw [chunkText]
  split_ifs with hnone
  · exact List.pairwise_singleton _ _
  · apply ranges_pairwise.filterMap
    intro a b hab chunk hchunk chunk' hchunk'
    rw [chunkOf_eq_some hchunk, chunkOf_eq_some hchunk']
    exact ⟨Nat.succ_le_succ hab.1, hab.2⟩

theorem exists_chunk {k : Nat} (hk : k < (splitlinesKeepends text).length)
    (hsaid : strip (splitlinesKeepends text)[k] ≠ []) :
    ∃ chunk ∈ chunkText text chunkTokens chunkOverlap,
      chunk.startLine ≤ k + 1 ∧ k + 1 ≤ chunk.endLine := by
  obtain ⟨range, hrange, hstart, hstop⟩ := @exists_range _ chunkTokens chunkOverlap k hk
  have hchunk := chunkOf_of_said hk hsaid hstart hstop
  rw [chunkText_of_said ⟨_, List.getElem_mem hk, hsaid⟩]
  exact ⟨_, List.mem_filterMap.mpr ⟨range, hrange, hchunk⟩, Nat.succ_le_succ hstart, hstop⟩

/-- Chunks name the lines they are made of, end at ever later lines and together hold every line that
is not blank; between two that follow each other only blank lines are left out. -/
theorem chunkText_loses_nothing (text : Str) (chunkTokens chunkOverlap : Nat) :
    ((∃ line ∈ splitlinesKeepends text, strip line ≠ []) →
        ∀ chunk ∈ chunkText text chunkTokens chunkOverlap, 1 ≤ chunk.startLine ∧
          chunk.startLine ≤ chunk.endLine ∧ chunk.endLine ≤ (splitlinesKeepends text).length) ∧
      (∀ chunk ∈ chunkText text chunkTokens chunkOverlap, chunk.body =
        strip (span (splitlinesKeepends text) (chunk.startLine - 1) chunk.endLine).flatten) ∧
      (chunkText text chunkTokens chunkOverlap).Pairwise (fun a b => a.endLine < b.endLine) ∧
      (∀ k, ∀ hk : k < (splitlinesKeepends text).length,
        strip (splitlinesKeepends text)[k] ≠ [] →
          ∃ chunk ∈ chunkText text chunkTokens chunkOverlap,
            chunk.startLine ≤ k + 1 ∧ k + 1 ≤ chunk.endLine) ∧
      ∀ before a b after, chunkText text chunkTokens chunkOverlap = before ++ a :: b :: after →
        ∀ k, ∀ hk : k < (splitlinesKeepends text).length,
          a.endLine < k + 1 → k + 1 < b.startLine → strip (splitlinesKeepends text)[k] = [] := by
  refine ⟨?_, ?_, chunkText_pairwise.imp fun h => h.2, fun k hk hsaid => exists_chunk hk hsaid, ?_⟩
  · rintro ⟨line, hline, hsaid⟩ chunk hchunk
    obtain ⟨range, hrange, rfl⟩ | ⟨hblank, -⟩ := mem_chunkText hchunk
    · obtain ⟨hne, hend⟩ := range_bounds hrange
      exact ⟨Nat.succ_le_succ (Nat.zero_le _), hne, hend⟩
    · exact absurd (hblank line hline) hsaid
  · intro chunk hchunk
    obtain ⟨range, hrange, rfl⟩ | ⟨-, rfl⟩ := mem_chunkText hchunk
    · rfl
    · have hall : span (splitlinesKeepends text) 0 (splitlinesKeepends text).length =
          splitlinesKeepends text := by
        rw [span, List.drop_zero, List.take_length]
      show strip text = strip (span (splitlinesKeepends text) 0 _).flatten
      rw [hall, flatten_splitlinesKeepends]
  · intro before a b after hsplit k hk hafter hbefore
    by_contra hsaid
    obtain ⟨chunk, hchunk, hstart, hend⟩ := @exists_chunk _ chunkTokens chunkOverlap k hk hsaid
    have hpairwise := @chunkText_pairwise text chunkTokens chunkOverlap
    rw [hsplit] at hchunk hpairwise
    obtain ⟨-, hright, hcross⟩ := List.pairwise_append.mp hpairwise
    obtain ⟨-, hlater⟩ := List.pairwise_cons.mp hright
    obtain hin | hin := List.mem_append.mp hchunk
    · have hless := hcross chunk hin a List.mem_cons_self
      omega
    · obtain rfl | hin := List.mem_cons.mp hin
      · omega
      · obtain rfl | hin := List.mem_cons.mp hin
        · omega
        · have hmore := (List.pairwise_cons.mp hlater).1 chunk hin
          omega

end

end OpenStarry.MemorySync
