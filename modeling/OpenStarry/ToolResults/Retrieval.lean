import OpenStarry.ToolResults.Records

/-!
# Retrieving a tool result in pages

A stored result is read in slices, each of which says where the next one begins. A reply is cut down to
a number of characters after that was written into it.
-/

namespace OpenStarry.ToolResults

open Lib Text

/-! ### Slices -/

def defaultMaxChars : Int := 12000
def absoluteMaxChars : Int := 500000

/-- `_safe_int` of an integer or none. -/
def safeInt (value : Option Int) (default minimum maximum : Int) : Int :=
  match value with
  | none => default
  | some parsed => max minimum (min maximum parsed)

structure Continuation where
  nextCallStrategy : Str
  nextCall : Json

def continuationText : Option Continuation → Str
  | none => []
  | some continuation =>
      "continuation.next_call_strategy: ".toList ++ (continuation.nextCallStrategy ++
        ("\ncontinuation.next_call: ".toList ++
          (Json.dumpsWith Json.defaultSeparators (Json.sortKeys continuation.nextCall) ++ ['\n'])))

/-- What `_raw_slice` takes from a record. -/
structure RawSlice where
  start : Nat
  body : Str
  nextOffset : Option Nat

def sliceFrom (record : ToolResultRecord) (offset : Option Int) (limit : Nat) : RawSlice :=
  let start := (safeInt offset 0 0 record.content.length).toNat
  let stop := min record.content.length (start + limit)
  ⟨start, (record.content.take stop).drop start,
    if stop < record.content.length then some stop else none⟩

namespace RawSlice

def preamble (slice : RawSlice) : Str :=
  "offset: ".toList ++ (decimal slice.start ++ ("\nreturned_chars: ".toList ++
    (decimal slice.body.length ++ ("\nnext_offset: ".toList ++
      ((match slice.nextOffset with
        | none => []
        | some next => decimal next) ++ ['\n'])))))

def continuation (slice : RawSlice) (handle : Str) (limit : Nat) : Option Continuation :=
  slice.nextOffset.map fun next =>
    { nextCallStrategy := "raw_slice_offset".toList
      nextCall := .obj [("name".toList, .str "retrieve_tool_result".toList),
        ("arguments".toList, .obj [("handle".toList, .str handle),
          ("mode".toList, .str "raw_slice".toList), ("offset".toList, natJson next),
          ("limit".toList, natJson limit)])] }

def tail (slice : RawSlice) (handle : Str) (limit : Nat) : Str :=
  match slice.continuation handle limit with
  | none => []
  | some continuation => '\n' :: continuationText (some continuation)

end RawSlice

/-- `_raw_slice`. -/
def rawSlice (record : ToolResultRecord) (offset : Option Int) (limit : Nat) : Str :=
  let slice := sliceFrom record offset limit
  slice.preamble ++ slice.body ++ slice.tail record.handle limit

/-! ### Replies -/

def clipMarker (text : Str) (maxChars : Nat) (continuation : Option Continuation) : Str :=
  "\n[retrieve_tool_result truncated: returned_chars=".toList ++ (decimal maxChars ++
    (", original_chars=".toList ++ (decimal text.length ++
      ("]\n".toList ++ continuationText continuation))))

/-- `_clip`. -/
def clip (text : Str) (maxChars : Nat) (continuation : Option Continuation) : Str :=
  let marker := clipMarker text maxChars continuation
  if text.length ≤ maxChars then text
  else if maxChars ≤ marker.length then marker.take maxChars
  else rstrip (text.take (maxChars - marker.length)) ++ marker

def rawSliceLimit (limit : Option Int) : Nat :=
  (safeInt limit defaultMaxChars 1 absoluteMaxChars).toNat

def charLimit (limit maxChars : Option Int) : Nat :=
  match maxChars with
  | none => (min absoluteMaxChars (max (safeInt none defaultMaxChars 1 absoluteMaxChars)
      (rawSliceLimit limit + 2000))).toNat
  | some chars => (safeInt (some chars) defaultMaxChars 1 absoluteMaxChars).toNat

def headerPrefix (record : ToolResultRecord) : Str :=
  "[tool_result_retrieval]\nhandle: ".toList ++ (record.handle ++ ("\ntool_name: ".toList ++
    (record.toolName ++ ("\nmode: raw_slice\noriginal_chars: ".toList ++
      (decimal record.chars ++ ['\n'])))))

def header (record : ToolResultRecord) (complete : Bool) : Str :=
  headerPrefix record ++ ("returned_content_is_complete: ".toList ++
    ((if complete then "true".toList else "false".toList) ++ "\n---\n".toList))

section

variable (record : ToolResultRecord) (limit maxChars : Option Int) (offset : Option Int)

def completeProbe : Str := header record true ++ rawSlice record offset (rawSliceLimit limit)

def saysComplete : Bool :=
  decide ((completeProbe record limit offset).length ≤ charLimit limit maxChars)

def unclipped : Str :=
  header record (saysComplete record limit maxChars offset) ++
    rawSlice record offset (rawSliceLimit limit)

/-- `retrieve_tool_result` with the mode `raw_slice`. -/
def retrieveToolResult : Str := clip (unclipped record limit maxChars offset)
  (charLimit limit maxChars) none

/-! ### Reading a reply -/

def kept : Str :=
  let text := unclipped record limit maxChars offset
  let marker := clipMarker text (charLimit limit maxChars) none
  if text.length ≤ charLimit limit maxChars then text
  else if charLimit limit maxChars ≤ marker.length then []
  else rstrip (text.take (charLimit limit maxChars - marker.length))

def head : Str :=
  header record (saysComplete record limit maxChars offset) ++
    (sliceFrom record offset (rawSliceLimit limit)).preamble

def returnedBody : Str :=
  ((kept record limit maxChars offset).drop (head record limit maxChars offset).length).take
    (sliceFrom record offset (rawSliceLimit limit)).body.length

def printedNext : Option Nat :=
  if (head record limit maxChars offset).length ≤ (kept record limit maxChars offset).length then
    (sliceFrom record offset (rawSliceLimit limit)).nextOffset
  else none

end

/-- The bodies that are read from an offset on until no next offset is printed. -/
inductive Pages (record : ToolResultRecord) (limit maxChars : Option Int) : Nat → List Str → Prop
  | last {offset : Nat} (hnext : printedNext record limit maxChars (some offset) = none) :
      Pages record limit maxChars offset [returnedBody record limit maxChars (some offset)]
  | more {offset next : Nat} {bodies : List Str}
      (hnext : printedNext record limit maxChars (some offset) = some next)
      (hrest : Pages record limit maxChars next bodies) :
      Pages record limit maxChars offset
        (returnedBody record limit maxChars (some offset) :: bodies)

/-- A record is read back, and no reply that was cut down says that it is complete. -/
structure Recovers (record : ToolResultRecord) (limit maxChars : Option Int) : Prop where
  pages : ∃ bodies, Pages record limit maxChars 0 bodies ∧ bodies.flatten = record.content
  honest : ∀ offset, saysComplete record limit maxChars offset = true →
    retrieveToolResult record limit maxChars offset = unclipped record limit maxChars offset

def endRoom (body : Str) : Nat := if ∃ c ∈ body.getLast?, isSpace c = true then 2 else 0

def cutLength (record : ToolResultRecord) (limit maxChars : Option Int) (offset : Nat) : Nat :=
  let slice := sliceFrom record (some offset) (rawSliceLimit limit)
  let text := header record false ++ rawSlice record (some offset) (rawSliceLimit limit)
  (header record false).length + slice.preamble.length + slice.body.length + endRoom slice.body +
    (clipMarker text (charLimit limit maxChars) none).length

def Room (record : ToolResultRecord) (limit maxChars : Option Int) (offset : Nat) : Prop :=
  (completeProbe record limit (some offset)).length ≤ charLimit limit maxChars ∨
    (sliceFrom record (some offset) (rawSliceLimit limit)).nextOffset ≠ none ∧
      cutLength record limit maxChars offset ≤ charLimit limit maxChars

instance (record : ToolResultRecord) (limit maxChars : Option Int) (offset : Nat) :
    Decidable (Room record limit maxChars offset) := inferInstanceAs (Decidable (_ ∨ _))

/-! ### What a cut leaves -/

theorem rstrip_append_space {c : Char} (h : isSpace c = true) (text : Str) :
    rstrip (text ++ [c]) = rstrip text := by
  rw [rstrip, rstrip, List.rdropWhile_concat_pos _ _ _ h]

theorem length_rstrip_le (text : Str) : (rstrip text).length ≤ text.length :=
  List.IsPrefix.length_le (List.rdropWhile_prefix _ _)

theorem length_rstrip_iff {text : Str} (hne : text ≠ []) :
    text.length ≤ (rstrip text).length ↔ ¬ ∃ c ∈ text.getLast?, isSpace c = true := by
  constructor
  · rintro hlength ⟨c, hlast, hspace⟩
    obtain ⟨front, rfl⟩ := List.getLast?_eq_some_iff.mp hlast
    rw [rstrip_append_space hspace, List.length_append] at hlength
    have hless := length_rstrip_le front
    rw [List.length_singleton] at hlength
    omega
  · intro hlast
    have hsame : rstrip text = text := by
      rw [rstrip, List.rdropWhile_eq_self_iff]
      intro _ hspace
      exact hlast ⟨_, List.getLast?_eq_getLast_of_ne_nil hne, hspace⟩
    rw [hsame]

section

variable {front body tail : Str} {cut : Nat}

theorem body_kept_iff (hbody : body ≠ [])
    (htail : tail = [] ∨ ∃ more, tail = '\n' :: 'c' :: more)
    (hcut : cut < (front ++ (body ++ tail)).length) :
    front.length + body.length ≤ (rstrip ((front ++ (body ++ tail)).take cut)).length ↔
      tail ≠ [] ∧ front.length + body.length + endRoom body ≤ cut := by
  have hwhole : (front ++ body).length = front.length + body.length := List.length_append
  have hne : front ++ body ≠ [] := List.append_ne_nil_of_right_ne_nil _ hbody
  have hlast : (front ++ body).getLast? = body.getLast? := List.getLast?_append_of_ne_nil _ hbody
  have hle := length_rstrip_le ((front ++ (body ++ tail)).take cut)
  rw [List.length_take] at hle
  rw [endRoom]
  by_cases hshort : cut < front.length + body.length
  · constructor
    · intro hlong
      omega
    · rintro ⟨-, hlong⟩
      omega
  · obtain ⟨more, rfl⟩ | hnil : (∃ more, tail = '\n' :: 'c' :: more) ∨ tail = [] := htail.symm
    · have htake : (front ++ (body ++ '\n' :: 'c' :: more)).take cut = front ++ body ++
          ('\n' :: 'c' :: more).take (cut - (front.length + body.length)) := by
        rw [← List.append_assoc, List.take_append, hwhole, List.take_of_length_le (by omega)]
      rw [htake]
      obtain hcut' | hcut' | hcut' : cut - (front.length + body.length) = 0 ∨
          cut - (front.length + body.length) = 1 ∨ 2 ≤ cut - (front.length + body.length) := by
        omega
      · rw [hcut', List.take_zero, List.append_nil, ← hwhole, length_rstrip_iff hne, hlast]
        split_ifs with hspace
        · exact ⟨fun h => absurd hspace h, fun h => by omega⟩
        · exact ⟨fun _ => ⟨List.cons_ne_nil _ _, by omega⟩, fun _ => hspace⟩
      · rw [hcut', List.take_succ_cons, List.take_zero, rstrip_append_space (by decide), ← hwhole,
          length_rstrip_iff hne, hlast]
        split_ifs with hspace
        · exact ⟨fun h => absurd hspace h, fun h => by omega⟩
        · exact ⟨fun _ => ⟨List.cons_ne_nil _ _, by omega⟩, fun _ => hspace⟩
      · obtain ⟨k, hk⟩ := Nat.exists_eq_add_of_le' hcut'
        have hkept : front ++ body ++ '\n' :: 'c' :: more.take k =
            (front ++ body ++ ['\n']) ++ 'c' :: more.take k := by
          rw [List.append_assoc _ ['\n']]
          rfl
        rw [hk, List.take_succ_cons, List.take_succ_cons, hkept, rstrip_append_cons (by decide),
          List.length_append, List.length_append, hwhole]
        constructor
        · intro _
          refine ⟨List.cons_ne_nil _ _, ?_⟩
          split_ifs <;> omega
        · intro _
          omega
    · rw [hnil, List.append_nil, List.length_append] at hcut
      omega

theorem body_read {text : Str} (h : text <+: front ++ (body ++ tail)) :
    (text.drop front.length).take body.length = body.take (text.length - front.length) := by
  have hlength := h.length_le
  rw [List.length_append] at hlength
  conv_lhs => rw [List.prefix_iff_eq_take.mp h]
  rw [List.drop_take, List.drop_left, List.take_take]
  by_cases hless : text.length - front.length ≤ body.length
  · rw [Nat.min_eq_right hless, List.take_append_of_le_length hless]
  · have hmore := Nat.le_of_not_le hless
    rw [Nat.min_eq_left hmore, List.take_left, List.take_of_length_le hmore]

end

/-! ### What a reply gives back -/

section

variable {record : ToolResultRecord} {limit maxChars : Option Int} {offset : Option Int}

def asked (record : ToolResultRecord) (limit : Option Int) (offset : Option Int) : RawSlice :=
  sliceFrom record offset (rawSliceLimit limit)

theorem unclipped_eq : unclipped record limit maxChars offset =
    head record limit maxChars offset ++ ((asked record limit offset).body ++
      (asked record limit offset).tail record.handle (rawSliceLimit limit)) := by
  rw [unclipped, head, rawSlice]
  simp only [List.append_assoc]
  rfl

theorem length_header_false : (header record false).length = (header record true).length + 1 := by
  rw [header, header, List.length_append, List.length_append, List.length_append,
    List.length_append]
  rfl

theorem length_unclipped_le (h : saysComplete record limit maxChars offset = true) :
    (unclipped record limit maxChars offset).length ≤ charLimit limit maxChars := by
  rw [unclipped, h]
  exact of_decide_eq_true h

theorem lt_length_unclipped (h : saysComplete record limit maxChars offset = false) :
    charLimit limit maxChars < (unclipped record limit maxChars offset).length := by
  have hprobe := Nat.lt_of_not_le (of_decide_eq_false h)
  rw [completeProbe, List.length_append] at hprobe
  rw [unclipped, h, List.length_append, length_header_false]
  omega

theorem kept_isPrefix : kept record limit maxChars offset <+: unclipped record limit maxChars offset := by
  rw [kept]
  split_ifs
  · exact List.prefix_refl _
  · exact List.nil_prefix
  · exact (List.rdropWhile_prefix _ _).trans (List.take_prefix _ _)

theorem returnedBody_eq : returnedBody record limit maxChars offset =
    (asked record limit offset).body.take ((kept record limit maxChars offset).length -
      (head record limit maxChars offset).length) := by
  have hprefix := @kept_isPrefix record limit maxChars offset
  rw [unclipped_eq] at hprefix
  exact body_read hprefix

theorem tail_shape (slice : RawSlice) (handle : Str) (limit : Nat) :
    slice.nextOffset = none ∧ slice.tail handle limit = [] ∨
      slice.nextOffset ≠ none ∧ ∃ more, slice.tail handle limit = '\n' :: 'c' :: more := by
  rw [RawSlice.tail, RawSlice.continuation]
  cases slice.nextOffset with
  | none => exact Or.inl ⟨rfl, rfl⟩
  | some next => exact Or.inr ⟨by simp, _, rfl⟩

theorem kept_iff_room {start : Nat} (hbody : (asked record limit (some (start : Int))).body ≠ []) :
    (head record limit maxChars (some (start : Int))).length +
        (asked record limit (some (start : Int))).body.length ≤
        (kept record limit maxChars (some (start : Int))).length ↔
      Room record limit maxChars start := by
  cases hsays : saysComplete record limit maxChars (some (start : Int)) with
  | true =>
      have hkept : kept record limit maxChars (some (start : Int)) =
          unclipped record limit maxChars (some (start : Int)) := by
        rw [kept, if_pos (length_unclipped_le hsays)]
      rw [hkept, unclipped_eq, List.length_append, List.length_append]
      exact ⟨fun _ => Or.inl (of_decide_eq_true hsays), fun _ => by omega⟩
  | false =>
      have hover := lt_length_unclipped hsays
      have hprobe : ¬ (completeProbe record limit (some (start : Int))).length ≤
          charLimit limit maxChars := of_decide_eq_false hsays
      have hpos := List.length_pos_of_ne_nil hbody
      have hhead : (head record limit maxChars (some (start : Int))).length =
          (header record false).length + (asked record limit (some (start : Int))).preamble.length := by
        rw [head, hsays, List.length_append]
        rfl
      have htext : unclipped record limit maxChars (some (start : Int)) =
          header record false ++ rawSlice record (some (start : Int)) (rawSliceLimit limit) := by
        rw [unclipped, hsays]
      have hcut : cutLength record limit maxChars start =
          (head record limit maxChars (some (start : Int))).length +
            (asked record limit (some (start : Int))).body.length +
            endRoom (asked record limit (some (start : Int))).body +
            (clipMarker (unclipped record limit maxChars (some (start : Int)))
              (charLimit limit maxChars) none).length := by
        rw [cutLength, hhead, htext]
        rfl
      rw [Room, or_iff_right hprobe, hcut, kept, if_neg (Nat.not_le.mpr hover)]
      split_ifs with hmarker
      · constructor
        · intro hlong
          rw [List.length_nil] at hlong
          omega
        · rintro ⟨-, hlong⟩
          omega
      · have htail := tail_shape (asked record limit (some (start : Int))) record.handle
          (rawSliceLimit limit)
        have hcut' : charLimit limit maxChars -
              (clipMarker (unclipped record limit maxChars (some (start : Int)))
                (charLimit limit maxChars) none).length <
            (unclipped record limit maxChars (some (start : Int))).length := by
          omega
        have hkept := body_kept_iff hbody (htail.imp And.right And.right) (unclipped_eq ▸ hcut')
        rw [← unclipped_eq] at hkept
        rw [hkept]
        apply and_congr
        · obtain ⟨hnone, htail⟩ | ⟨hsome, more, htail⟩ := htail
          · rw [htail]
            exact ⟨fun h => absurd rfl h, fun h => absurd hnone h⟩
          · rw [htail]
            exact ⟨fun _ => hsome, fun _ => List.cons_ne_nil _ _⟩
        · omega

end

/-! ### Reading all pages -/

section

variable {record : ToolResultRecord} {limit maxChars : Option Int} {start : Nat}

theorem rawSliceLimit_pos (limit : Option Int) : 0 < rawSliceLimit limit := by
  cases limit with
  | none => decide
  | some parsed =>
      show 0 < (max 1 (min 500000 parsed) : Int).toNat
      omega

theorem asked_start (h : start ≤ record.content.length) :
    (asked record limit (some (start : Int))).body =
        (record.content.drop start).take (rawSliceLimit limit) ∧
      (asked record limit (some (start : Int))).nextOffset =
        if start + rawSliceLimit limit < record.content.length then
          some (start + rawSliceLimit limit)
        else none := by
  have hstart : (safeInt (some (start : Int)) 0 0 record.content.length).toNat = start := by
    show (max 0 (min (record.content.length : Int) start)).toNat = start
    omega
  rw [asked, sliceFrom, hstart]
  constructor
  · show (record.content.take (min record.content.length (start + rawSliceLimit limit))).drop start =
      (record.content.drop start).take (rawSliceLimit limit)
    rw [List.drop_take]
    by_cases hmore : record.content.length ≤ start + rawSliceLimit limit
    · rw [Nat.min_eq_left hmore, List.take_of_length_le (by rw [List.length_drop]),
        List.take_of_length_le (by rw [List.length_drop]; omega)]
    · rw [Nat.min_eq_right (Nat.le_of_not_le hmore), Nat.add_sub_cancel_left]
  · show (if min record.content.length (start + rawSliceLimit limit) < record.content.length then
        some (min record.content.length (start + rawSliceLimit limit)) else none) = _
    by_cases hmore : start + rawSliceLimit limit < record.content.length
    · rw [Nat.min_eq_right (Nat.le_of_lt hmore)]
    · rw [if_neg hmore, if_neg (by omega)]

theorem length_asked (h : start ≤ record.content.length) :
    (asked record limit (some (start : Int))).body.length =
      min (rawSliceLimit limit) (record.content.length - start) := by
  rw [(asked_start h).1, List.length_take, List.length_drop]

theorem asked_ne_nil (h : start < record.content.length) :
    (asked record limit (some (start : Int))).body ≠ [] := by
  apply List.ne_nil_of_length_pos
  rw [length_asked (Nat.le_of_lt h)]
  have hpos := rawSliceLimit_pos limit
  omega

theorem length_returnedBody_le : (returnedBody record limit maxChars (some (start : Int))).length ≤
    (asked record limit (some (start : Int))).body.length := by
  rw [returnedBody_eq, List.length_take]
  exact Nat.min_le_right _ _

theorem room_of_length (h : start < record.content.length)
    (hlength : (returnedBody record limit maxChars (some (start : Int))).length =
      (asked record limit (some (start : Int))).body.length) : Room record limit maxChars start := by
  have hpos := List.length_pos_of_ne_nil (@asked_ne_nil record limit start h)
  rw [returnedBody_eq, List.length_take] at hlength
  rw [← kept_iff_room (asked_ne_nil h)]
  omega

theorem returned_of_room (h : start < record.content.length) (hroom : Room record limit maxChars start) :
    returnedBody record limit maxChars (some (start : Int)) =
        (asked record limit (some (start : Int))).body ∧
      printedNext record limit maxChars (some (start : Int)) =
        (asked record limit (some (start : Int))).nextOffset := by
  have hkept := (kept_iff_room (asked_ne_nil h)).mpr hroom
  constructor
  · rw [returnedBody_eq, List.take_of_length_le (by omega)]
  · exact if_pos (by omega)

theorem printedNext_eq_some {next : Nat} (hstart : start ≤ record.content.length)
    (h : printedNext record limit maxChars (some (start : Int)) = some next) :
    next = start + rawSliceLimit limit ∧ next < record.content.length := by
  rw [printedNext] at h
  split_ifs at h
  · have hnext := (@asked_start record limit start hstart).2
    rw [asked, h] at hnext
    split_ifs at hnext with hmore
    · rw [Option.some.inj hnext]
      exact ⟨rfl, hmore⟩

theorem Pages.length_le {bodies : List Str} (h : Pages record limit maxChars start bodies)
    (hstart : start ≤ record.content.length) :
    bodies.flatten.length ≤ record.content.length - start ∧
      (bodies.flatten.length = record.content.length - start →
        ∀ k, start + k * rawSliceLimit limit < record.content.length →
          Room record limit maxChars (start + k * rawSliceLimit limit)) := by
  induction h with
  | @last start hnext =>
      have hle := @length_returnedBody_le record limit maxChars start
      have hasked := @length_asked record limit start hstart
      rw [List.flatten_cons, List.flatten_nil, List.append_nil]
      refine ⟨by omega, ?_⟩
      intro hlength k hk
      have hless : start < record.content.length := Nat.lt_of_le_of_lt (Nat.le_add_right _ _) hk
      have hroom := @room_of_length record limit maxChars start hless (by omega)
      cases k with
      | zero =>
          rw [Nat.zero_mul, Nat.add_zero]
          exact hroom
      | succ k =>
          rw [Nat.succ_mul] at hk
          have hsame := (returned_of_room hless hroom).2
          rw [hnext, (asked_start hstart).2, if_pos (by omega)] at hsame
          cases hsame
  | @more start next bodies hnext hrest ih =>
      obtain ⟨rfl, hless⟩ := printedNext_eq_some hstart hnext
      obtain ⟨hrestLength, hrestRoom⟩ := ih (Nat.le_of_lt hless)
      have hle := @length_returnedBody_le record limit maxChars start
      have hasked := @length_asked record limit start hstart
      rw [List.flatten_cons, List.length_append]
      refine ⟨by omega, ?_⟩
      intro hlength k hk
      cases k with
      | zero =>
          rw [Nat.zero_mul, Nat.add_zero] at hk ⊢
          exact room_of_length hk (by omega)
      | succ k =>
          have hplace : start + (k + 1) * rawSliceLimit limit =
              start + rawSliceLimit limit + k * rawSliceLimit limit := by
            rw [Nat.succ_mul]
            omega
          rw [hplace] at hk ⊢
          exact hrestRoom (by omega) k hk

theorem exists_pages (hstart : start ≤ record.content.length)
    (hroom : ∀ k, start + k * rawSliceLimit limit < record.content.length →
      Room record limit maxChars (start + k * rawSliceLimit limit)) :
    ∃ bodies, Pages record limit maxChars start bodies ∧
      bodies.flatten = record.content.drop start := by
  induction hleft : record.content.length - start using Nat.strong_induction_on generalizing start with
  | _ left ih =>
      have hpos := rawSliceLimit_pos limit
      obtain ⟨hbody, hnext⟩ := @asked_start record limit start hstart
      by_cases hless : start < record.content.length
      · have hfirst := hroom 0
        rw [Nat.zero_mul, Nat.add_zero] at hfirst
        obtain ⟨hreturned, hprinted⟩ := returned_of_room hless (hfirst hless)
        rw [hbody] at hreturned
        rw [hnext] at hprinted
        split_ifs at hprinted with hmore
        · obtain ⟨bodies, hpages, hflatten⟩ := ih _ (by omega) (Nat.le_of_lt hmore) (by
            intro k hk
            have hlater := hroom (k + 1)
            rw [Nat.succ_mul, Nat.add_comm (k * _), ← Nat.add_assoc] at hlater
            exact hlater hk) rfl
          refine ⟨_, Pages.more hprinted hpages, ?_⟩
          rw [List.flatten_cons, hflatten, hreturned, ← List.drop_drop, List.take_append_drop]
        · refine ⟨_, Pages.last hprinted, ?_⟩
          rw [List.flatten_cons, List.flatten_nil, List.append_nil, hreturned,
            List.take_of_length_le (by rw [List.length_drop]; omega)]
      · have hprinted : printedNext record limit maxChars (some (start : Int)) = none := by
          rw [printedNext]
          split_ifs
          · show (asked record limit (some (start : Int))).nextOffset = none
            rw [hnext, if_neg (by omega)]
          · rfl
        refine ⟨_, Pages.last hprinted, ?_⟩
        have hle := @length_returnedBody_le record limit maxChars start
        rw [length_asked hstart] at hle
        have hempty : returnedBody record limit maxChars (some (start : Int)) = [] :=
          List.eq_nil_of_length_eq_zero (by omega)
        rw [List.flatten_cons, List.flatten_nil, List.append_nil, hempty,
          List.drop_of_length_le (by omega)]

end

theorem retrieveToolResult_of_saysComplete {record : ToolResultRecord}
    {limit maxChars offset : Option Int} (h : saysComplete record limit maxChars offset = true) :
    retrieveToolResult record limit maxChars offset = unclipped record limit maxChars offset :=
  if_pos (length_unclipped_le h)

theorem exists_pages_iff (record : ToolResultRecord) (limit maxChars : Option Int) :
    (∃ bodies, Pages record limit maxChars 0 bodies ∧ bodies.flatten = record.content) ↔
      ∀ k, k * rawSliceLimit limit < record.content.length →
        Room record limit maxChars (k * rawSliceLimit limit) := by
  constructor
  · rintro ⟨bodies, hpages, hflatten⟩ k hk
    have hroom := (hpages.length_le (Nat.zero_le _)).2
    rw [hflatten] at hroom
    rw [← Nat.zero_add (k * _)] at hk ⊢
    exact hroom rfl k hk
  · intro hroom
    apply exists_pages (Nat.zero_le _)
    intro k hk
    rw [Nat.zero_add] at hk ⊢
    exact hroom k hk

/-- A stored text is read back exactly when there is room for each of its pages. -/
theorem recovers_iff (record : ToolResultRecord) (limit maxChars : Option Int) :
    Recovers record limit maxChars ↔
      ∀ k, k * rawSliceLimit limit < record.content.length →
        Room record limit maxChars (k * rawSliceLimit limit) := by
  rw [← exists_pages_iff]
  constructor
  · exact Recovers.pages
  · exact fun hpages => ⟨hpages, fun _ => retrieveToolResult_of_saysComplete⟩

def lettersRecord : ToolResultRecord where
  handle := "tr-00000000000000000000000000000000".toList
  toolUseId := "call".toList
  toolName := "bash".toList
  sessionId := "session".toList
  sessionKey := "key".toList
  agentId := "agent".toList
  sha256 := []
  chars := 60
  sizeBytes := 60
  createdAt := []
  content := List.replicate 60 'a'
  storedSizeBytes := none
  storageEncoding := plainEncoding

/-- Three hundred characters cut off the slice that the next page begins behind. -/
theorem not_recovers : ¬ ∀ record limit maxChars, Recovers record limit maxChars := by
  intro h
  have hpages := (h lettersRecord (some 40) (some 300)).pages
  rw [exists_pages_iff] at hpages
  have hroom := hpages 0 (by decide)
  exact absurd hroom (by decide +kernel)

end OpenStarry.ToolResults
