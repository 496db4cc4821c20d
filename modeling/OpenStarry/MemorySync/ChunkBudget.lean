import Mathlib.Data.List.Chain
import OpenStarry.MemorySync.ChunkText

/-!
# The budget of a chunk

The line that ends a chunk is put into the next one after the overlap without being counted against
the budget, and the overlap may reach back to the first line of the chunk it is taken from.
-/

namespace OpenStarry.MemorySync

open Lib Text

/-! ### Tokens of a run of lines -/

section

variable {lines : List Str} {start stop i k : Nat}

theorem span_self : span lines i i = [] := by
  rw [span, List.drop_eq_nil_iff, List.length_take]
  exact Nat.min_le_left _ _

theorem spanTokens_self : spanTokens lines i i = 0 := by
  rw [spanTokens, span_self]
  rfl

theorem span_succ (hstart : start ≤ i) (hi : i < lines.length) :
    span lines start (i + 1) = span lines start i ++ [lines[i]] := by
  rw [span, span, List.take_succ_eq_append_getElem hi, List.drop_append_of_le_length]
  rw [List.length_take]
  omega

theorem spanTokens_succ (hstart : start ≤ i) (hi : i < lines.length) :
    spanTokens lines start (i + 1) = spanTokens lines start i + estimateTokens lines[i] := by
  rw [spanTokens, span_succ hstart hi, List.map_append, List.sum_append]
  rfl

theorem span_cons (hk : k < stop) (hstop : stop ≤ lines.length) :
    span lines k stop = lines[k] :: span lines (k + 1) stop := by
  have hlength : k < (lines.take stop).length := by
    rw [List.length_take]
    omega
  rw [span, span, List.drop_eq_getElem_cons hlength, List.getElem_take]

theorem spanTokens_cons (hk : k < stop) (hstop : stop ≤ lines.length) :
    spanTokens lines k stop = estimateTokens lines[k] + spanTokens lines (k + 1) stop := by
  rw [spanTokens, span_cons hk hstop]
  rfl

theorem estimateTokens_pos {text : Str} (h : text ≠ []) : 0 < estimateTokens text := by
  rw [estimateTokens, if_neg h]
  exact Nat.lt_of_lt_of_le Nat.zero_lt_one (Nat.le_max_left _ _)

theorem spanTokens_pos (hne : ∀ line ∈ lines, line ≠ []) (h : start < stop)
    (hstop : stop ≤ lines.length) : 0 < spanTokens lines start stop := by
  have hpos := estimateTokens_pos (hne lines[start] (List.getElem_mem (by omega)))
  rw [spanTokens_cons h hstop]
  omega

end

/-! ### The overlap -/

/-- No shorter run of lines before `stop` has so many tokens. -/
def ShortestRun (lines : List Str) (chunkOverlap start stop : Nat) : Prop :=
  chunkOverlap ≤ spanTokens lines start stop ∧
    ∀ later, start < later → later ≤ stop → spanTokens lines later stop < chunkOverlap

section

variable {lines : List Str} {chunkTokens chunkOverlap start i : Nat}

theorem rewindFrom_shortest (hi : i ≤ lines.length) (j : Nat) (hj : j ≤ i)
    (hback : ∀ later, j ≤ later → later ≤ i → spanTokens lines later i < chunkOverlap) :
    rewindFrom lines chunkOverlap start i j (spanTokens lines j i) = i ∨
      ShortestRun lines chunkOverlap
        (rewindFrom lines chunkOverlap start i j (spanTokens lines j i)) i := by
  induction j with
  | zero => exact Or.inl rfl
  | succ j ih =>
      have hline : lines.getD j [] = lines[j] := by
        rw [List.getD_eq_getElem?_getD, List.getElem?_eq_getElem (Nat.lt_of_lt_of_le hj hi)]
        rfl
      have htokens : spanTokens lines (j + 1) i + estimateTokens lines[j] = spanTokens lines j i := by
        rw [spanTokens_cons hj hi, Nat.add_comm]
      rw [rewindFrom, hline, htokens]
      split_ifs with hless hreached
      · exact Or.inl rfl
      · exact Or.inr ⟨hreached, hback⟩
      · apply ih (Nat.le_of_succ_le hj)
        intro later hlow hhigh
        obtain rfl | hlater := Nat.eq_or_lt_of_le hlow
        · exact Nat.lt_of_not_le hreached
        · exact hback later hlater hhigh

theorem rewind_shortest (hi : i ≤ lines.length) (hoverlap : 0 < chunkOverlap) :
    rewind lines chunkOverlap start i = i ∨
      ShortestRun lines chunkOverlap (rewind lines chunkOverlap start i) i := by
  have hrun := @rewindFrom_shortest lines chunkOverlap start i hi i (Nat.le_refl i)
  rw [spanTokens_self] at hrun
  apply hrun
  intro later hlow hhigh
  rw [Nat.le_antisymm hhigh hlow, spanTokens_self]
  exact hoverlap

theorem rewind_zero (h : start < i) : rewind lines 0 start i = i - 1 := by
  cases i with
  | zero => cases h
  | succ i =>
      rw [rewind, rewindFrom, if_neg (by omega), if_pos (Nat.zero_le _)]
      rfl

end

/-! ### How long a range gets -/

def Fits (lines : List Str) (chunkTokens start stop : Nat) : Prop :=
  stop ≤ start + 1 ∨ spanTokens lines start stop ≤ chunkTokens

/-- The range of one cut is followed by that of another. -/
structure Follows (lines : List Str) (chunkTokens chunkOverlap : Nat) (a b : Cut) : Prop where
  begin : b.start = a.next
  next : a.next = rewind lines chunkOverlap a.start a.stop
  ordered : a.start < a.stop ∧ a.start ≤ a.next ∧ a.next ≤ a.stop ∧ a.stop < b.stop
  last : b.start ≤ b.next
  bound : b.stop ≤ lines.length
  fits : Fits lines chunkTokens a.next (a.stop + 1) → Fits lines chunkTokens b.start b.stop
  overfull : ¬ Fits lines chunkTokens a.next (a.stop + 1) → b.stop = a.stop + 1

section

variable {lines : List Str} {chunkTokens chunkOverlap start i : Nat}

/-- The cuts made from the line `i` on, with one at the end of the text. -/
def allCutsFrom (lines : List Str) (chunkTokens chunkOverlap : Nat) (rest : List Str)
    (i start tokens : Nat) : List Cut :=
  let found := cutsFrom lines chunkTokens chunkOverlap rest i start tokens
  found.1 ++ [⟨found.2, lines.length, lines.length⟩]

theorem allCutsFrom_chain (hne : ∀ line ∈ lines, line ≠ []) {rest : List Str}
    (hrest : lines.drop i = rest) (hi : i ≤ lines.length) (hstart : start ≤ i)
    (hpos : start < lines.length) :
    ∃ cut later, allCutsFrom lines chunkTokens chunkOverlap rest i start
        (spanTokens lines start i) = cut :: later ∧
      cut.start = start ∧ i ≤ cut.stop ∧ cut.stop ≤ lines.length ∧ cut.start ≤ cut.next ∧
      (Fits lines chunkTokens start i → Fits lines chunkTokens start cut.stop) ∧
      (¬ Fits lines chunkTokens start i → cut.stop = i) ∧
      List.IsChain (Follows lines chunkTokens chunkOverlap) (cut :: later) := by
  induction rest generalizing i start with
  | nil =>
      have hend : i = lines.length := Nat.le_antisymm hi (List.drop_eq_nil_iff.mp hrest)
      refine ⟨⟨start, lines.length, lines.length⟩, [], rfl, rfl, hi, Nat.le_refl _,
        Nat.le_of_lt hpos, ?_, fun _ => hend.symm, List.isChain_singleton _⟩
      rw [hend]
      exact id
  | cons line rest ih =>
      have hless : i < lines.length := by
        by_contra hover
        rw [List.drop_eq_nil_iff.mpr (Nat.le_of_not_lt hover)] at hrest
        cases hrest
      rw [List.drop_eq_getElem_cons hless, List.cons.injEq] at hrest
      obtain ⟨hline, hlater⟩ := hrest
      have hsum : ∀ {begin}, begin ≤ i →
          spanTokens lines begin i + estimateTokens line = spanTokens lines begin (i + 1) := by
        intro begin hbegin
        rw [spanTokens_succ hbegin hless, hline]
      rw [allCutsFrom, cutsFrom]
      split_ifs with hcut
      · obtain ⟨hlow, hhigh⟩ := @rewind_bounds lines chunkOverlap start i hstart
        obtain ⟨cut, later, hfound, hbegin, hafter, hend, hnext, hfits, hoverfull, hchain⟩ :=
          @ih (rewind lines chunkOverlap start i) (i + 1) hlater hless (by omega) (by omega)
        rw [← hsum hhigh] at hfound
        have hne' : start < i := by
          by_contra hsame
          rw [show start = i by omega, spanTokens_self] at hcut
          exact Nat.lt_irrefl 0 hcut.2
        refine ⟨⟨start, i, rewind lines chunkOverlap start i⟩, cut :: later, ?_, rfl, Nat.le_refl i,
          hi, hlow, id, fun _ => rfl, ?_⟩
        · rw [← hfound]
          rfl
        · rw [List.isChain_cons_cons]
          refine ⟨⟨hbegin, rfl, ⟨hne', hlow, hhigh, hafter⟩, hnext, hend, ?_, hoverfull⟩, hchain⟩
          rw [hbegin]
          exact hfits
      · have hfit : Fits lines chunkTokens start (i + 1) := by
          obtain hsame | hmore := Nat.eq_or_lt_of_le hstart
          · exact Or.inl (by omega)
          · have htokens := spanTokens_pos hne hmore hi
            have hbudget := hsum hstart
            exact Or.inr (by omega)
        obtain ⟨cut, later, hfound, hbegin, hafter, hend, hnext, hfits, -, hchain⟩ :=
          @ih start (i + 1) hlater hless (by omega) hpos
        rw [← hsum hstart] at hfound
        refine ⟨cut, later, hfound, hbegin, Nat.le_of_succ_le hafter, hend, hnext,
          fun _ => hfits hfit, ?_, hchain⟩
        intro hover
        exfalso
        rw [Fits, not_or] at hover
        apply hcut
        have hbudget := hsum hstart
        have hlineTokens := estimateTokens_pos (hne lines[i] (List.getElem_mem hless))
        omega

end

/-! ### The ranges of a text -/

def allCuts (lines : List Str) (chunkTokens chunkOverlap : Nat) : List Cut :=
  allCutsFrom lines chunkTokens chunkOverlap lines 0 0 0

section

variable {lines : List Str} {chunkTokens chunkOverlap : Nat} {cut : Cut}

theorem allCuts_eq : allCuts lines chunkTokens chunkOverlap =
    (cuts lines chunkTokens chunkOverlap).1 ++
      [⟨(cuts lines chunkTokens chunkOverlap).2, lines.length, lines.length⟩] := rfl

theorem ranges_eq (hpos : 0 < lines.length) : ranges lines chunkTokens chunkOverlap =
    (allCuts lines chunkTokens chunkOverlap).map fun cut => (cut.start, cut.stop) := by
  have hlast : (cuts lines chunkTokens chunkOverlap).2 < lines.length :=
    last_lt_cutsFrom (Nat.le_refl 0) hpos (Nat.zero_add _)
  rw [allCuts_eq, List.map_append, ranges, if_pos hlast]
  rfl

theorem allCuts_chain (hne : ∀ line ∈ lines, line ≠ []) (hpos : 0 < lines.length) :
    ∃ first later, allCuts lines chunkTokens chunkOverlap = first :: later ∧
      Fits lines chunkTokens first.start first.stop ∧ first.stop ≤ lines.length ∧
      first.start ≤ first.next ∧
      List.IsChain (Follows lines chunkTokens chunkOverlap) (first :: later) := by
  obtain ⟨first, later, hfound, hbegin, -, hend, hnext, hfits, -, hchain⟩ :=
    @allCutsFrom_chain lines chunkTokens chunkOverlap 0 0 hne lines rfl (Nat.zero_le _)
      (Nat.le_refl 0) hpos
  rw [spanTokens_self] at hfound
  refine ⟨first, later, hfound, ?_, hend, hnext, hchain⟩
  rw [hbegin]
  exact hfits (Or.inl (Nat.zero_le _))

/-- A cut and one made after it. -/
structure Before (lines : List Str) (chunkOverlap : Nat) (a b : Cut) : Prop where
  next : a.next = rewind lines chunkOverlap a.start a.stop
  begins : a.start < a.stop
  start : a.next ≤ b.start
  stop : a.stop < b.stop
  last : b.start ≤ b.next
  bound : b.stop ≤ lines.length

theorem Follows.before {a b : Cut} (h : Follows lines chunkTokens chunkOverlap a b) :
    Before lines chunkOverlap a b :=
  ⟨h.next, h.ordered.1, Nat.le_of_eq h.begin.symm, h.ordered.2.2.2, h.last, h.bound⟩

theorem Before.trans {a b c : Cut} (hab : Before lines chunkOverlap a b)
    (hbc : Before lines chunkOverlap b c) : Before lines chunkOverlap a c :=
  ⟨hab.next, hab.begins, Nat.le_trans hab.start (Nat.le_trans hab.last hbc.start),
    Nat.lt_trans hab.stop hbc.stop, hbc.last, hbc.bound⟩

theorem allCuts_pairwise (hne : ∀ line ∈ lines, line ≠ []) (hpos : 0 < lines.length) :
    (allCuts lines chunkTokens chunkOverlap).Pairwise (Before lines chunkOverlap) := by
  obtain ⟨first, later, hfound, -, -, -, hchain⟩ :=
    @allCuts_chain lines chunkTokens chunkOverlap hne hpos
  have htrans : Trans (Before lines chunkOverlap) (Before lines chunkOverlap)
      (Before lines chunkOverlap) := ⟨Before.trans⟩
  rw [hfound]
  exact (hchain.imp fun _ _ h => h.before).pairwise

theorem mem_cuts_of_lt (h : cut ∈ allCuts lines chunkTokens chunkOverlap)
    (hstop : cut.stop < lines.length) : cut ∈ (cuts lines chunkTokens chunkOverlap).1 := by
  rw [allCuts_eq] at h
  obtain hcut | hlast := List.mem_append.mp h
  · exact hcut
  · rw [List.mem_singleton.mp hlast] at hstop
    exact absurd hstop (Nat.lt_irrefl _)

theorem exists_follows (hne : ∀ line ∈ lines, line ≠ [])
    (h : cut ∈ (cuts lines chunkTokens chunkOverlap).1) :
    ∃ front after back, allCuts lines chunkTokens chunkOverlap = front ++ cut :: after :: back ∧
      Follows lines chunkTokens chunkOverlap cut after := by
  have hpos : 0 < lines.length := by
    obtain ⟨hstops, -⟩ :=
      @stops_cutsFrom lines chunkTokens chunkOverlap 0 0 0 lines (Nat.zero_add _)
    exact Nat.lt_of_le_of_lt (Nat.zero_le _) (hstops cut h).2
  obtain ⟨first, later, hfound, -, -, -, hchain⟩ :=
    @allCuts_chain lines chunkTokens chunkOverlap hne hpos
  obtain ⟨front, behind, hsplit⟩ := List.append_of_mem h
  obtain ⟨after, back, hback⟩ : ∃ after back, behind ++
      [⟨(cuts lines chunkTokens chunkOverlap).2, lines.length, lines.length⟩] = after :: back := by
    cases behind with
    | nil => exact ⟨_, [], rfl⟩
    | cons after back => exact ⟨after, _, rfl⟩
  have hall : allCuts lines chunkTokens chunkOverlap = front ++ cut :: after :: back := by
    rw [allCuts_eq, hsplit, List.append_assoc, List.cons_append, hback]
  rw [← hfound, hall, List.isChain_append_cons_cons] at hchain
  exact ⟨front, after, back, hall, hchain.2.1⟩

theorem exists_before_of_chain {α : Type} {r : α → α → Prop} {a d : α} {l : List α}
    (h : List.IsChain r (a :: l)) (hd : d ∈ l) : ∃ c ∈ a :: l, r c d := by
  induction l generalizing a with
  | nil => cases hd
  | cons b l ih =>
      rw [List.isChain_cons_cons] at h
      obtain rfl | hin := List.mem_cons.mp hd
      · exact ⟨a, List.mem_cons_self, h.1⟩
      · obtain ⟨c, hc, hrel⟩ := ih h.2 hin
        exact ⟨c, List.mem_cons_of_mem _ hc, hrel⟩

end

/-! ### What the chunks of a text are held to -/

def Says (lines : List Str) (start stop : Nat) : Prop := strip (span lines start stop).flatten ≠ []

instance (lines : List Str) (start stop : Nat) : Decidable (Says lines start stop) :=
  inferInstanceAs (Decidable (_ ≠ _))

def Contains (a b : Chunk) : Prop := a.startLine ≤ b.startLine ∧ b.endLine ≤ a.endLine

def SharesOverlap (lines : List Str) (chunkOverlap : Nat) (a b : Chunk) : Prop :=
  b.startLine ≤ a.endLine → ∃ start, a.startLine ≤ start + 1 ∧
    ShortestRun lines chunkOverlap start a.endLine ∧ start + 1 ≤ b.startLine

structure WithinBudget (text : Str) (chunkTokens chunkOverlap : Nat) : Prop where
  tokens : ∀ chunk ∈ chunkText text chunkTokens chunkOverlap, chunk.startLine < chunk.endLine →
    spanTokens (splitlinesKeepends text) (chunk.startLine - 1) chunk.endLine ≤ chunkTokens
  separate : (chunkText text chunkTokens chunkOverlap).Pairwise
    fun a b => ¬ Contains a b ∧ ¬ Contains b a
  shared : (chunkText text chunkTokens chunkOverlap).IsChain
    (SharesOverlap (splitlinesKeepends text) chunkOverlap)

/-- What the loop does not look at when it cuts: whether the line that did not fit does so after the
overlap, and whether the overlap is less than the chunk. -/
structure SafeCut (lines : List Str) (chunkTokens : Nat) (cut : Cut) : Prop where
  room : cut.next < cut.stop → Says lines cut.next (cut.stop + 1) →
    spanTokens lines cut.next cut.stop + estimateTokens (lines.getD cut.stop []) ≤ chunkTokens
  leaves : Says lines cut.start cut.stop → cut.next ≠ cut.start

structure SafeCuts (lines : List Str) (chunkTokens chunkOverlap : Nat) : Prop where
  each : ∀ cut ∈ (cuts lines chunkTokens chunkOverlap).1, SafeCut lines chunkTokens cut
  apart : chunkOverlap = 0 → (ranges lines chunkTokens chunkOverlap).IsChain
    fun a b => ¬ (Says lines a.1 a.2 ∧ Says lines b.1 b.2)
  blank : (∀ line ∈ lines, strip line = []) →
    lines.length ≤ 1 ∨ (lines.map estimateTokens).sum ≤ chunkTokens

/-! ### When they are within the budget -/

section

variable {lines : List Str} {chunkTokens chunkOverlap : Nat} {cut : Cut}

theorem Says.chunkOf {range : Nat × Nat} (h : Says lines range.1 range.2) :
    chunkOf lines range =
      some ⟨range.1 + 1, range.2, strip (span lines range.1 range.2).flatten⟩ := if_neg h

theorem says_of_chunkOf {range : Nat × Nat} {chunk : Chunk} (h : chunkOf lines range = some chunk) :
    Says lines range.1 range.2 := by
  intro hblank
  rw [MemorySync.chunkOf, if_pos hblank] at h
  cases h

theorem exists_of_mem_span {start stop : Nat} {line : Str} (h : line ∈ span lines start stop) :
    ∃ k, ∃ hk : k < lines.length, start ≤ k ∧ k < stop ∧ lines[k] = line := by
  rw [span] at h
  obtain ⟨k, hk, rfl⟩ := List.mem_iff_getElem.mp h
  rw [List.length_drop, List.length_take] at hk
  refine ⟨start + k, by omega, by omega, by omega, ?_⟩
  rw [List.getElem_drop, List.getElem_take]

theorem Says.mono {start stop start' stop' : Nat} (h : Says lines start stop) (hstart : start' ≤ start)
    (hstop : stop ≤ stop') : Says lines start' stop' := by
  intro hblank
  apply h
  rw [strip_eq_nil_iff] at hblank ⊢
  intro c hc
  obtain ⟨line, hline, hin⟩ := List.mem_flatten.mp hc
  obtain ⟨k, hk, hlow, hhigh, rfl⟩ := exists_of_mem_span hline
  exact hblank c (List.mem_flatten.mpr
    ⟨lines[k], mem_span (Nat.le_trans hstart hlow) (Nat.lt_of_lt_of_le hhigh hstop) hk, hin⟩)

theorem spanTokens_room (hnext : cut.next ≤ cut.stop) (hstop : cut.stop < lines.length) :
    spanTokens lines cut.next cut.stop + estimateTokens (lines.getD cut.stop []) =
      spanTokens lines cut.next (cut.stop + 1) := by
  have hline : lines.getD cut.stop [] = lines[cut.stop] := by
    rw [List.getD_eq_getElem?_getD, List.getElem?_eq_getElem hstop]
    rfl
  rw [hline, spanTokens_succ hnext hstop]

theorem follower_of_cut (hne : ∀ line ∈ lines, line ≠ [])
    (h : cut ∈ (cuts lines chunkTokens chunkOverlap).1) :
    ∃ front after back, ranges lines chunkTokens chunkOverlap =
        front ++ (cut.start, cut.stop) :: (after.start, after.stop) :: back ∧
      Follows lines chunkTokens chunkOverlap cut after := by
  obtain ⟨front, after, back, hsplit, hfollows⟩ := exists_follows hne h
  have hstops := @stops_cutsFrom lines chunkTokens chunkOverlap 0 0 0 lines (Nat.zero_add _)
  have hpos : 0 < lines.length := Nat.lt_of_le_of_lt (Nat.zero_le _) (hstops.1 cut h).2
  have hranges := @ranges_eq lines chunkTokens chunkOverlap hpos
  rw [hsplit, List.map_append, List.map_cons, List.map_cons] at hranges
  exact ⟨_, after, _, hranges, hfollows⟩

theorem tokens_fit (hne : ∀ line ∈ lines, line ≠ [])
    (hsafe : ∀ cut ∈ (cuts lines chunkTokens chunkOverlap).1, SafeCut lines chunkTokens cut)
    {range : Nat × Nat} (h : range ∈ ranges lines chunkTokens chunkOverlap)
    (hsaid : Says lines range.1 range.2) : Fits lines chunkTokens range.1 range.2 := by
  have hpos : 0 < lines.length :=
    Nat.lt_of_lt_of_le (Nat.lt_of_le_of_lt (Nat.zero_le _) (range_bounds h).1) (range_bounds h).2
  rw [ranges_eq hpos] at h
  obtain ⟨d, hd, rfl⟩ := List.mem_map.mp h
  obtain ⟨first, later, hfound, hfits, -, -, hchain⟩ :=
    @allCuts_chain lines chunkTokens chunkOverlap hne hpos
  rw [hfound] at hd
  obtain rfl | hin := List.mem_cons.mp hd
  · exact hfits
  · obtain ⟨c, hc, hfollows⟩ := exists_before_of_chain hchain hin
    rw [← hfound] at hc
    have hstop : c.stop < lines.length :=
      Nat.lt_of_lt_of_le hfollows.ordered.2.2.2 hfollows.bound
    by_cases hroom : Fits lines chunkTokens c.next (c.stop + 1)
    · exact hfollows.fits hroom
    · have hnext := hfollows.ordered.2.2.1
      have hend := hfollows.overfull hroom
      rw [hfollows.begin, hend] at hsaid
      rw [Fits, not_or] at hroom
      have hbudget := (hsafe c (mem_cuts_of_lt hc hstop)).room (by omega) hsaid
      rw [spanTokens_room hnext hstop] at hbudget
      exact absurd hbudget hroom.2

theorem apart_of_chain {l : List Cut} (hchain : l.IsChain (Follows lines chunkTokens 0))
    (happart : l.IsChain fun a b => ¬ (Says lines a.start a.stop ∧ Says lines b.start b.stop)) :
    l.Pairwise fun a b =>
      ¬ (Says lines a.start a.stop ∧ Says lines b.start b.stop) ∨ a.stop ≤ b.start := by
  induction l with
  | nil => exact List.Pairwise.nil
  | cons a l ih =>
      cases l with
      | nil => exact List.pairwise_singleton _ _
      | cons d l =>
          have htrans : Trans (Before lines 0) (Before lines 0) (Before lines 0) := ⟨Before.trans⟩
          rw [List.isChain_cons_cons] at hchain happart
          refine List.pairwise_cons.mpr ⟨?_, ih hchain.2 happart.2⟩
          intro b hb
          obtain rfl | hin := List.mem_cons.mp hb
          · exact Or.inl happart.1
          · right
            have hlater := (List.pairwise_cons.mp
              (hchain.2.imp fun _ _ h => h.before).pairwise).1 b hin
            have hnext := hlater.next
            rw [rewind_zero hlater.begins] at hnext
            have hstop := hchain.1.ordered.2.2.2
            have hstart := hlater.start
            omega

end

section

variable {text : Str} {chunkTokens chunkOverlap : Nat}

theorem mem_chunkText_of_said {range : Nat × Nat}
    (h : range ∈ ranges (splitlinesKeepends text) chunkTokens chunkOverlap)
    (hsaid : Says (splitlinesKeepends text) range.1 range.2) :
    (⟨range.1 + 1, range.2, strip (span (splitlinesKeepends text) range.1 range.2).flatten⟩ : Chunk) ∈
      chunkText text chunkTokens chunkOverlap := by
  have hmem := List.mem_filterMap.mpr ⟨range, h, hsaid.chunkOf⟩
  rw [chunkText, if_neg (List.ne_nil_of_mem hmem)]
  exact hmem

theorem chunkText_split {front back : List (Nat × Nat)} {a b : Nat × Nat}
    (h : ranges (splitlinesKeepends text) chunkTokens chunkOverlap = front ++ a :: b :: back)
    (ha : Says (splitlinesKeepends text) a.1 a.2) (hb : Says (splitlinesKeepends text) b.1 b.2) :
    ∃ before after, chunkText text chunkTokens chunkOverlap = before ++
      ⟨a.1 + 1, a.2, strip (span (splitlinesKeepends text) a.1 a.2).flatten⟩ ::
      ⟨b.1 + 1, b.2, strip (span (splitlinesKeepends text) b.1 b.2).flatten⟩ :: after := by
  have hchunks : (ranges (splitlinesKeepends text) chunkTokens chunkOverlap).filterMap
      (chunkOf (splitlinesKeepends text)) = front.filterMap (chunkOf (splitlinesKeepends text)) ++
        ⟨a.1 + 1, a.2, strip (span (splitlinesKeepends text) a.1 a.2).flatten⟩ ::
        ⟨b.1 + 1, b.2, strip (span (splitlinesKeepends text) b.1 b.2).flatten⟩ ::
        back.filterMap (chunkOf (splitlinesKeepends text)) := by
    rw [h, List.filterMap_append, List.filterMap_cons_some ha.chunkOf,
      List.filterMap_cons_some hb.chunkOf]
  refine ⟨front.filterMap (chunkOf (splitlinesKeepends text)),
    back.filterMap (chunkOf (splitlinesKeepends text)), ?_⟩
  rw [chunkText, hchunks, if_neg (List.append_ne_nil_of_right_ne_nil _ (List.cons_ne_nil _ _))]

theorem lines_ne_nil : ∀ line ∈ splitlinesKeepends text, line ≠ [] :=
  fun line hline => (isPiece_of_mem_splitlinesKeepends text line hline).1

theorem not_says_of_blank (h : ∀ line ∈ splitlinesKeepends text, strip line = []) (start stop : Nat) :
    ¬ Says (splitlinesKeepends text) start stop := by
  rw [Says, not_not, strip_eq_nil_iff]
  intro c hc
  obtain ⟨line, hline, hin⟩ := List.mem_flatten.mp hc
  obtain ⟨k, hk, -, -, rfl⟩ := exists_of_mem_span hline
  exact strip_eq_nil_iff.mp (h _ (List.getElem_mem hk)) c hin

theorem chunkText_blank (h : ∀ line ∈ splitlinesKeepends text, strip line = []) :
    chunkText text chunkTokens chunkOverlap =
      [⟨1, (splitlinesKeepends text).length, strip text⟩] := by
  rw [chunkText, if_pos]
  rw [List.filterMap_eq_nil_iff]
  intro range hrange
  exact if_pos (not_not.mp (not_says_of_blank h range.1 range.2))

theorem span_all : span (splitlinesKeepends text) 0 (splitlinesKeepends text).length =
    splitlinesKeepends text := by
  rw [span, List.drop_zero, List.take_length]

theorem ranges_overlap {a b : Nat × Nat} {front back : List (Nat × Nat)}
    (h : ranges (splitlinesKeepends text) chunkTokens 0 = front ++ a :: b :: back) : b.1 < a.2 := by
  have hmem : a ∈ ranges (splitlinesKeepends text) chunkTokens 0 := by
    rw [h]
    simp
  have hpos : 0 < (splitlinesKeepends text).length :=
    Nat.lt_of_lt_of_le (Nat.lt_of_le_of_lt (Nat.zero_le _) (range_bounds hmem).1)
      (range_bounds hmem).2
  obtain ⟨first, later, hfound, -, -, -, hchain⟩ :=
    @allCuts_chain _ chunkTokens 0 (@lines_ne_nil text) hpos
  have hranges : (ranges (splitlinesKeepends text) chunkTokens 0).IsChain
      fun a b => b.1 < a.2 := by
    rw [ranges_eq hpos, List.isChain_map, hfound]
    apply hchain.imp
    intro c d hfollows
    have hnext := hfollows.next
    rw [rewind_zero hfollows.ordered.1] at hnext
    have hbegin := hfollows.begin
    have hless := hfollows.ordered.1
    show d.start < c.stop
    omega
  rw [h, List.isChain_append_cons_cons] at hranges
  exact hranges.2.1

theorem safeCuts_of_withinBudget (h : WithinBudget text chunkTokens chunkOverlap) :
    SafeCuts (splitlinesKeepends text) chunkTokens chunkOverlap where
  each := by
    intro cut hcut
    obtain ⟨front, after, back, hsplit, hfollows⟩ := follower_of_cut lines_ne_nil hcut
    have hafter : (after.start, after.stop) ∈
        ranges (splitlinesKeepends text) chunkTokens chunkOverlap := by
      rw [hsplit]
      simp
    obtain ⟨hcutStop, hlow, hhigh, hlater⟩ := hfollows.ordered
    constructor
    · intro hnext hsaid
      rw [spanTokens_room hhigh (Nat.lt_of_lt_of_le hlater hfollows.bound)]
      by_contra hover
      have hoverfull : ¬ Fits (splitlinesKeepends text) chunkTokens cut.next (cut.stop + 1) := by
        rw [Fits, not_or]
        exact ⟨by omega, hover⟩
      have hend := hfollows.overfull hoverfull
      rw [← hfollows.begin, ← hend] at hsaid hover
      apply hover
      refine h.tokens _ (mem_chunkText_of_said hafter hsaid) ?_
      show after.start + 1 < after.stop
      have hbegin := hfollows.begin
      omega
    · intro hsaid hsame
      have hbegin : after.start = cut.start := hfollows.begin.trans hsame
      have hsaid' : Says (splitlinesKeepends text) after.start after.stop :=
        hsaid.mono (Nat.le_of_eq hbegin) (Nat.le_of_lt hlater)
      obtain ⟨before, behind, hchunks⟩ := chunkText_split hsplit hsaid hsaid'
      have hseparate := h.separate
      rw [hchunks] at hseparate
      have hpair := (List.pairwise_cons.mp (List.pairwise_append.mp hseparate).2.1).1 _
        List.mem_cons_self
      exact hpair.2 ⟨Nat.succ_le_succ (Nat.le_of_eq hbegin), Nat.le_of_lt hlater⟩
  apart := by
    rintro rfl
    rw [List.isChain_iff_forall_rel_of_append_cons_cons]
    rintro a b front back hsplit ⟨ha, hb⟩
    obtain ⟨before, behind, hchunks⟩ := chunkText_split hsplit ha hb
    have hshared := h.shared
    rw [hchunks, List.isChain_append_cons_cons] at hshared
    obtain ⟨start, -, hrun, hstart⟩ := hshared.2.1 (Nat.succ_le_of_lt (ranges_overlap hsplit))
    have hless := Nat.lt_of_le_of_lt (Nat.le_of_succ_le_succ hstart) (ranges_overlap hsplit)
    exact absurd (hrun.2 a.2 hless (Nat.le_refl _)) (Nat.not_lt_zero _)
  blank := by
    intro hblank
    have hchunks := @chunkText_blank text chunkTokens chunkOverlap hblank
    by_cases hone : (splitlinesKeepends text).length ≤ 1
    · exact Or.inl hone
    · right
      have htokens := h.tokens
      rw [hchunks] at htokens
      have hsum := htokens _ (List.mem_singleton_self _) (Nat.lt_of_not_le hone)
      rw [spanTokens, Nat.sub_self, span_all] at hsum
      exact hsum

theorem tokens_of_safeCuts
    (h : SafeCuts (splitlinesKeepends text) chunkTokens chunkOverlap) {chunk : Chunk}
    (hchunk : chunk ∈ chunkText text chunkTokens chunkOverlap)
    (hlines : chunk.startLine < chunk.endLine) :
    spanTokens (splitlinesKeepends text) (chunk.startLine - 1) chunk.endLine ≤ chunkTokens := by
  by_cases hsaid : ∃ line ∈ splitlinesKeepends text, strip line ≠ []
  · rw [chunkText_of_said hsaid] at hchunk
    obtain ⟨range, hrange, hsome⟩ := List.mem_filterMap.mp hchunk
    obtain hshort | hfits := tokens_fit lines_ne_nil h.each hrange (says_of_chunkOf hsome)
    · rw [chunkOf_eq_some hsome] at hlines
      exact absurd hlines (Nat.not_lt.mpr hshort)
    · rw [chunkOf_eq_some hsome]
      exact hfits
  · have hblank : ∀ line ∈ splitlinesKeepends text, strip line = [] := by
      intro line hline
      by_contra hline'
      exact hsaid ⟨line, hline, hline'⟩
    rw [chunkText_blank hblank] at hchunk
    rw [List.mem_singleton.mp hchunk] at hlines ⊢
    obtain hone | hsum := h.blank hblank
    · exact absurd hlines (Nat.not_lt.mpr hone)
    · rw [spanTokens, Nat.sub_self, span_all]
      exact hsum

theorem pairwise_chunkText {r : Chunk → Chunk → Prop}
    (h : 0 < (splitlinesKeepends text).length →
      (allCuts (splitlinesKeepends text) chunkTokens chunkOverlap).Pairwise fun a b =>
        Says (splitlinesKeepends text) a.start a.stop →
        Says (splitlinesKeepends text) b.start b.stop →
        ∀ body body', r ⟨a.start + 1, a.stop, body⟩ ⟨b.start + 1, b.stop, body'⟩) :
    (chunkText text chunkTokens chunkOverlap).Pairwise r := by
  rw [chunkText]
  split_ifs with hnone
  · exact List.pairwise_singleton _ _
  · have hpos : 0 < (splitlinesKeepends text).length := by
      obtain ⟨chunk, hchunk⟩ := List.exists_mem_of_ne_nil _ hnone
      obtain ⟨range, hrange, -⟩ := List.mem_filterMap.mp hchunk
      obtain ⟨hless, hbound⟩ := range_bounds hrange
      exact Nat.lt_of_lt_of_le (Nat.lt_of_le_of_lt (Nat.zero_le _) hless) hbound
    rw [ranges_eq hpos, List.filterMap_map]
    apply (h hpos).filterMap
    intro a b hab chunk hchunk chunk' hchunk'
    rw [chunkOf_eq_some hchunk, chunkOf_eq_some hchunk']
    exact hab (says_of_chunkOf hchunk) (says_of_chunkOf hchunk') _ _

theorem separate_of_safeCuts (h : SafeCuts (splitlinesKeepends text) chunkTokens chunkOverlap) :
    (chunkText text chunkTokens chunkOverlap).Pairwise
      fun a b => ¬ Contains a b ∧ ¬ Contains b a := by
  apply pairwise_chunkText
  intro hpos
  apply (allCuts_pairwise lines_ne_nil hpos).imp_of_mem
  intro a b ha hb hbefore hsaid _ body body'
  have hstop := hbefore.stop
  have hbound := hbefore.bound
  have hleaves := (h.each a (mem_cuts_of_lt ha (Nat.lt_of_lt_of_le hstop hbound))).leaves hsaid
  have hlow := (@rewind_bounds (splitlinesKeepends text) chunkOverlap a.start a.stop
    (Nat.le_of_lt hbefore.begins)).1
  rw [← hbefore.next] at hlow
  have hstart := hbefore.start
  constructor
  · rintro ⟨-, hend⟩
    exact absurd hend (Nat.not_le.mpr hstop)
  · rintro ⟨hbegin, -⟩
    have hle : b.start + 1 ≤ a.start + 1 := hbegin
    omega

theorem shared_of_safeCuts (h : SafeCuts (splitlinesKeepends text) chunkTokens chunkOverlap) :
    (chunkText text chunkTokens chunkOverlap).IsChain
      (SharesOverlap (splitlinesKeepends text) chunkOverlap) := by
  apply List.Pairwise.isChain
  apply pairwise_chunkText
  intro hpos
  obtain rfl | hoverlap := Nat.eq_zero_or_pos chunkOverlap
  · obtain ⟨first, later, hfound, -, -, -, hchain⟩ :=
      @allCuts_chain _ chunkTokens 0 (@lines_ne_nil text) hpos
    have happart := h.apart rfl
    rw [ranges_eq hpos, List.isChain_map] at happart
    rw [← hfound] at hchain
    apply (apart_of_chain hchain happart).imp
    rintro a b (hnot | hless) ha hb body body' hshared
    · exact absurd ⟨ha, hb⟩ hnot
    · exact absurd (Nat.le_trans hshared hless) (Nat.not_succ_le_self _)
  · apply (allCuts_pairwise lines_ne_nil hpos).imp_of_mem
    intro a b ha hb hbefore _ _ body body' hshared
    have hbound := Nat.lt_of_lt_of_le hbefore.stop hbefore.bound
    have hstart := hbefore.start
    have hshared' : b.start + 1 ≤ a.stop := hshared
    obtain hnone | hrun := @rewind_shortest (splitlinesKeepends text) chunkOverlap a.start a.stop
      (Nat.le_of_lt hbound) hoverlap
    · rw [← hbefore.next] at hnone
      omega
    · have hlow := (@rewind_bounds (splitlinesKeepends text) chunkOverlap a.start a.stop
        (Nat.le_of_lt hbefore.begins)).1
      rw [← hbefore.next] at hrun hlow
      exact ⟨a.next, Nat.succ_le_succ hlow, hrun, Nat.succ_le_succ hstart⟩

end

end OpenStarry.MemorySync
