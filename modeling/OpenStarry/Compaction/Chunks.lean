import Mathlib.Algebra.Ring.Int.Defs
import Mathlib.Data.List.Flatten
import OpenStarry.Compaction.Pairs

/-!
# The chunks of a compaction

Complete rounds are packed into chunks up to a number of tokens. A round is never split, so one that
is too long is a chunk of its own. When there are more chunks than calls may be made, neighbours are
joined.
-/

namespace OpenStarry.Compaction

open Lib

/-- The chunks that are complete, and the one being packed with its tokens. -/
structure Packing where
  chunks : List (List Entry)
  current : List Entry
  currentTokens : Int

namespace Packing

def close (p : Packing) : Packing := ⟨p.chunks ++ [p.current], [], 0⟩

def extend (p : Packing) (group : List Entry) (tokens : Int) : Packing :=
  ⟨p.chunks, p.current ++ group, p.currentTokens + tokens⟩

end Packing

section

variable (texts : Texts) (inputTokens : List Entry → Int) (tokenLimit : Int)

def makeRoom (p : Packing) (tokens : Int) : Packing :=
  if p.current ≠ [] ∧ tokenLimit < p.currentTokens + tokens then p.close else p

def packGroup (p : Packing) (group : List Entry) : Packing :=
  let p := (makeRoom tokenLimit p (inputTokens group)).extend group (inputTokens group)
  if tokenLimit ≤ p.currentTokens then p.close else p

/-- `_chunk_entries`. -/
def chunkEntries (entries : List Entry) (maxInputTokens : Int) : List (List Entry) :=
  if entries = [] then []
  else
    let p := (apiRoundGroups texts entries).foldl (packGroup inputTokens (max 1 maxInputTokens))
      ⟨[], [], 0⟩
    if p.current ≠ [] then p.chunks ++ [p.current] else p.chunks

/-- `_coalesce_chunks`; the starts of the groups are `range(0, len(chunks), group_size)`. -/
def coalesceChunks (chunks : List (List Entry)) (maxChunks : Int) : List (List Entry) :=
  if maxChunks ≤ 0 ∨ (chunks.length : Int) ≤ maxChunks then chunks
  else
    let groupSize := (chunks.length + maxChunks.toNat - 1) / maxChunks.toNat
    (List.range ((chunks.length + groupSize - 1) / groupSize)).map fun i =>
      ((chunks.drop (i * groupSize)).take groupSize).flatten

end

variable {texts : Texts} {inputTokens : List Entry → Int} {tokenLimit : Int}

/-! ### Rounds are not empty -/

theorem ne_nil_of_mem_flush {g : Grouping} (h : ∀ group ∈ g.groups, group ≠ []) :
    ∀ group ∈ g.flush.groups, group ≠ [] := by
  unfold Grouping.flush
  split_ifs with hnil
  · exact h
  · intro group hgroup
    rw [List.mem_append, List.mem_singleton] at hgroup
    cases hgroup with
    | inl hgroup => exact h group hgroup
    | inr hgroup =>
        rw [hgroup]
        exact hnil

theorem ne_nil_of_mem_groupStep {g : Grouping} (h : ∀ group ∈ g.groups, group ≠ []) (entry : Entry) :
    ∀ group ∈ (groupStep texts g entry).groups, group ≠ [] := by
  have hbefore : ∀ group ∈ ((closeBefore texts g entry).append entry).groups, group ≠ [] := by
    unfold closeBefore
    dsimp only
    split_ifs
    · exact ne_nil_of_mem_flush h
    · exact ne_nil_of_mem_flush h
    · exact h
    · exact h
  unfold groupStep closeAfter
  split_ifs
  · exact hbefore
  · exact hbefore
  · exact ne_nil_of_mem_flush hbefore
  · exact hbefore

theorem ne_nil_of_mem_apiRoundGroups (entries : List Entry) :
    ∀ group ∈ apiRoundGroups texts entries, group ≠ [] := by
  apply ne_nil_of_mem_flush
  apply List.foldlRecOn entries (groupStep texts) (motive := fun g => ∀ group ∈ g.groups, group ≠ [])
  · exact fun _ hgroup => absurd hgroup List.not_mem_nil
  · exact fun g h entry _ => ne_nil_of_mem_groupStep h entry

/-! ### Packing -/

def Within (inputTokens : List Entry → Int) (tokenLimit : Int) (pack : List (List Entry)) : Prop :=
  1 < pack.length → (pack.map inputTokens).sum ≤ tokenLimit

/-- The rounds so far, by the chunks they are in. -/
structure Packs (inputTokens : List Entry → Int) (tokenLimit : Int) (p : Packing)
    (rounds : List (List Entry)) (packs : List (List (List Entry))) (last : List (List Entry)) :
    Prop where
  rounds : packs.flatten ++ last = rounds
  chunks : p.chunks = packs.map List.flatten
  current : p.current = last.flatten
  tokens : p.currentTokens = (last.map inputTokens).sum
  within : ∀ pack ∈ packs, Within inputTokens tokenLimit pack
  lastWithin : Within inputTokens tokenLimit last

namespace Packs

variable {p : Packing} {rounds last : List (List Entry)} {packs : List (List (List Entry))}

theorem empty : Packs inputTokens tokenLimit ⟨[], [], 0⟩ [] [] [] where
  rounds := rfl
  chunks := rfl
  current := rfl
  tokens := rfl
  within := fun _ hpack => absurd hpack List.not_mem_nil
  lastWithin := fun hmany => absurd hmany (Nat.not_lt_zero 1)

theorem close (h : Packs inputTokens tokenLimit p rounds packs last) :
    Packs inputTokens tokenLimit p.close rounds (packs ++ [last]) [] where
  rounds := by rw [List.flatten_append, List.flatten_singleton, List.append_nil, h.rounds]
  chunks := by rw [Packing.close, h.chunks, h.current, List.map_append, List.map_singleton]
  current := rfl
  tokens := rfl
  within := by
    intro pack hpack
    rw [List.mem_append, List.mem_singleton] at hpack
    cases hpack with
    | inl hpack => exact h.within pack hpack
    | inr hpack =>
        rw [hpack]
        exact h.lastWithin
  lastWithin := fun hmany => absurd hmany (Nat.not_lt_zero 1)

theorem extend (h : Packs inputTokens tokenLimit p rounds packs last) {group : List Entry}
    (hroom : last ≠ [] → p.currentTokens + inputTokens group ≤ tokenLimit) :
    Packs inputTokens tokenLimit (p.extend group (inputTokens group)) (rounds ++ [group]) packs
      (last ++ [group]) where
  rounds := by rw [← List.append_assoc, h.rounds]
  chunks := h.chunks
  current := by rw [Packing.extend, h.current, List.flatten_append, List.flatten_singleton]
  tokens := by
    rw [Packing.extend, h.tokens, List.map_append, List.map_singleton, List.sum_append,
      List.sum_singleton]
  within := h.within
  lastWithin := by
    intro hmany
    rw [List.length_append, List.length_singleton] at hmany
    rw [List.map_append, List.map_singleton, List.sum_append, List.sum_singleton, ← h.tokens]
    exact hroom (List.ne_nil_of_length_pos (by omega))

theorem current_eq_nil (h : Packs inputTokens tokenLimit p rounds packs last)
    (hrounds : ∀ round ∈ rounds, round ≠ []) (hcurrent : p.current = []) : last = [] := by
  rw [h.current, List.flatten_eq_nil_iff] at hcurrent
  apply List.eq_nil_iff_forall_not_mem.2
  intro round hround
  apply hrounds round _ (hcurrent round hround)
  rw [← h.rounds]
  exact List.mem_append_right _ hround

theorem makeRoom (h : Packs inputTokens tokenLimit p rounds packs last)
    (hrounds : ∀ round ∈ rounds, round ≠ []) (tokens : Int) :
    ∃ packs' last', Packs inputTokens tokenLimit (makeRoom tokenLimit p tokens) rounds packs' last' ∧
      (last' ≠ [] → (Compaction.makeRoom tokenLimit p tokens).currentTokens + tokens ≤ tokenLimit) := by
  unfold Compaction.makeRoom
  split_ifs with hfull
  · exact ⟨_, _, h.close, fun hlast => absurd rfl hlast⟩
  · refine ⟨_, _, h, ?_⟩
    intro hlast
    rw [not_and, Int.not_lt] at hfull
    exact hfull fun hcurrent => hlast (h.current_eq_nil hrounds hcurrent)

theorem packGroup (h : Packs inputTokens tokenLimit p rounds packs last)
    (hrounds : ∀ round ∈ rounds, round ≠ []) (group : List Entry) :
    ∃ packs' last', Packs inputTokens tokenLimit (packGroup inputTokens tokenLimit p group)
      (rounds ++ [group]) packs' last' := by
  obtain ⟨packs', last', hmade, hroom⟩ := h.makeRoom hrounds (inputTokens group)
  unfold Compaction.packGroup
  dsimp only
  split_ifs
  · exact ⟨_, _, (hmade.extend hroom).close⟩
  · exact ⟨_, _, hmade.extend hroom⟩

end Packs

theorem exists_packs {rounds : List (List Entry)} (hrounds : ∀ round ∈ rounds, round ≠ []) :
    ∃ packs last, Packs inputTokens tokenLimit
      (rounds.foldl (packGroup inputTokens tokenLimit) ⟨[], [], 0⟩) rounds packs last := by
  induction rounds using List.reverseRecOn with
  | nil => exact ⟨_, _, .empty⟩
  | append_singleton rounds group ih =>
      have hbefore : ∀ round ∈ rounds, round ≠ [] :=
        fun round hround => hrounds round (List.mem_append_left _ hround)
      obtain ⟨packs, last, h⟩ := ih hbefore
      rw [List.foldl_append]
      exact h.packGroup hbefore group

def HoldsRounds (inputTokens : List Entry → Int) (tokenLimit : Int) (rounds chunks : List (List Entry)) :
    Prop :=
  ∃ packs : List (List (List Entry)), packs.flatten = rounds ∧ chunks = packs.map List.flatten ∧
    ∀ pack ∈ packs, Within inputTokens tokenLimit pack

theorem holdsRounds_chunkEntries (texts : Texts) (inputTokens : List Entry → Int)
    (entries : List Entry) (maxInputTokens : Int) :
    HoldsRounds inputTokens (max 1 maxInputTokens) (apiRoundGroups texts entries)
      (chunkEntries texts inputTokens entries maxInputTokens) := by
  unfold chunkEntries
  split_ifs with hnil
  · rw [hnil]
    exact ⟨[], rfl, rfl, fun _ hpack => absurd hpack List.not_mem_nil⟩
  · have hrounds := @ne_nil_of_mem_apiRoundGroups texts entries
    obtain ⟨packs, last, h⟩ := @exists_packs inputTokens (max 1 maxInputTokens) _ hrounds
    dsimp only
    split_ifs with hcurrent
    · have hclosed := h.close
      exact ⟨_, (List.append_nil _).symm.trans hclosed.rounds, hclosed.chunks, hclosed.within⟩
    · rw [not_not] at hcurrent
      have hlast := h.current_eq_nil hrounds hcurrent
      have hall := h.rounds
      rw [hlast, List.append_nil] at hall
      exact ⟨_, hall, h.chunks, h.within⟩

theorem HoldsRounds.flatten {rounds chunks : List (List Entry)}
    (h : HoldsRounds inputTokens tokenLimit rounds chunks) : chunks.flatten = rounds.flatten := by
  obtain ⟨packs, hrounds, hchunks, -⟩ := h
  rw [hchunks, ← hrounds, List.flatten_flatten]

/-! ### Joining chunks -/

theorem flatten_slices {α : Type} (l : List α) (size count : Nat) :
    ((List.range count).map fun i => (l.drop (i * size)).take size).flatten =
      l.take (count * size) := by
  induction count with
  | zero => rw [Nat.zero_mul, List.take_zero]; rfl
  | succ count ih =>
      rw [List.range_succ, List.map_append, List.flatten_append, ih, List.map_singleton,
        List.flatten_singleton, Nat.succ_mul, List.take_add]

theorem le_mul_groupSize {chunks count : Nat} (hcount : 0 < count) :
    chunks ≤ count * ((chunks + count - 1) / count) := by
  have hdiv := Nat.div_add_mod (chunks + count - 1) count
  have hmod := Nat.mod_lt (chunks + count - 1) hcount
  omega

theorem groupSize_pos {chunks count : Nat} (hcount : 0 < count) (hmany : count < chunks) :
    0 < (chunks + count - 1) / count :=
  Nat.div_pos (by omega) hcount

theorem coalesceChunks_flatten (chunks : List (List Entry)) (maxChunks : Int) :
    (coalesceChunks chunks maxChunks).flatten = chunks.flatten := by
  unfold coalesceChunks
  split_ifs with hfew
  · rfl
  · rw [not_or, Int.not_le, Int.not_le] at hfew
    have hpos := @groupSize_pos chunks.length maxChunks.toNat (by omega) (by omega)
    dsimp only
    generalize (chunks.length + maxChunks.toNat - 1) / maxChunks.toNat = groupSize at hpos ⊢
    have hwhole := @le_mul_groupSize chunks.length _ hpos
    rw [Nat.mul_comm] at hwhole
    have hslices := flatten_slices chunks groupSize ((chunks.length + groupSize - 1) / groupSize)
    rw [List.take_of_length_le hwhole] at hslices
    nth_rewrite 3 [← hslices]
    rw [List.flatten_flatten, List.map_map]
    rfl

theorem length_coalesceChunks_le {chunks : List (List Entry)} {maxChunks : Int}
    (hmax : 1 ≤ maxChunks) : ((coalesceChunks chunks maxChunks).length : Int) ≤ maxChunks := by
  unfold coalesceChunks
  split_ifs with hfew
  · omega
  · rw [not_or, Int.not_le, Int.not_le] at hfew
    have hcover := @le_mul_groupSize chunks.length maxChunks.toNat (by omega)
    have hpos := @groupSize_pos chunks.length maxChunks.toNat (by omega) (by omega)
    dsimp only
    generalize (chunks.length + maxChunks.toNat - 1) / maxChunks.toNat = groupSize at hcover hpos ⊢
    rw [List.length_map, List.length_range]
    have hfits : (chunks.length + groupSize - 1) / groupSize < maxChunks.toNat + 1 := by
      apply (Nat.div_lt_iff_lt_mul hpos).2
      rw [Nat.succ_mul]
      omega
    omega

/-! ### What chunks are promised to be -/

/-- With `limitOf` as the limit that a budget stands for. -/
structure ChunksAreSound (limitOf : Int → Int) : Prop where
  rounds : ∀ texts inputTokens entries budget, HoldsRounds inputTokens (limitOf budget)
    (apiRoundGroups texts entries) (chunkEntries texts inputTokens entries budget)
  covered : ∀ texts inputTokens entries budget,
    (chunkEntries texts inputTokens entries budget).flatten = entries
  coalesced : ∀ chunks maxChunks, (coalesceChunks chunks maxChunks).flatten = chunks.flatten
  bounded : ∀ chunks maxChunks, 1 ≤ maxChunks →
    ((coalesceChunks chunks maxChunks).length : Int) ≤ maxChunks

/-- Every budget stands for at least one token. -/
theorem chunksAreSound : ChunksAreSound (max 1) where
  rounds := holdsRounds_chunkEntries
  covered := by
    intro texts inputTokens entries budget
    rw [(holdsRounds_chunkEntries texts inputTokens entries budget).flatten]
    exact apiRoundGroups_flatten texts entries
  coalesced := coalesceChunks_flatten
  bounded := fun _ _ => length_coalesceChunks_le

/-- Two rounds, of no tokens and of one, share a chunk although there is no budget. -/
theorem not_chunksAreSound : ¬ ChunksAreSound id := by
  intro h
  let first := row "user" "" []
  let second := row "user" "go" []
  obtain ⟨packs, hrounds, hchunks, hwithin⟩ := h.rounds plainEnv.texts
    (fun group => if group = [first] then 0 else 1) [first, second] 0
  have hgroups : apiRoundGroups plainEnv.texts [first, second] = [[first], [second]] := by
    decide +kernel
  have hone : chunkEntries plainEnv.texts (fun group => if group = [first] then 0 else 1)
      [first, second] 0 = [[first, second]] := by decide +kernel
  rw [hone] at hchunks
  obtain ⟨pack, hpacks, -⟩ := List.map_eq_singleton_iff.1 hchunks.symm
  rw [hpacks, List.flatten_singleton, hgroups] at hrounds
  have htotal := hwithin pack (by rw [hpacks]; exact List.mem_singleton_self pack)
  rw [hrounds] at htotal
  exact absurd (htotal (by decide)) (by decide +kernel)

end OpenStarry.Compaction
