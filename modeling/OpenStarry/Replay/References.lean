import OpenStarry.Lib.LinePieces
import OpenStarry.Replay.Sizes

/-!
# References of projected results

A reference is read from the first lines that have its keys, however they are spelled. The
projection of a projection keeps the lines that begin with the keys and a colon, and writes a digest
of its own behind them.
-/

namespace OpenStarry.Replay

open Lib Lib.Text Lib.Json

variable {σ β : Type} (runtime : Runtime)

/-! ### Fields of lines -/

def fieldsIn (text : Str) : List (Str × Str) := (splitlines text).filterMap headerField

theorem headerField_nil : headerField [] = none := rfl

theorem fieldsIn_unlines (parts : List Str) : fieldsIn (unlines parts) = parts.flatMap fieldsIn :=
  filterMap_splitlines_unlines headerField_nil parts

theorem fieldsIn_singleLine {line : Str} (hline : SingleLine line) :
    fieldsIn line = (headerField line).toList := by
  by_cases hne : line = []
  · rw [hne]
    rfl
  · rw [fieldsIn, splitlines, hline.splitlinesKeepends_eq hne, List.map_singleton,
      hline.rdropWhile_eq, List.filterMap_cons]
    cases headerField line <;> rfl

theorem splitlines_first {first : Str} (hline : SingleLine first) (rest : Str) :
    splitlines (first ++ '\n' :: rest) = first :: splitlines rest := by
  rw [splitlines, hline.splitlinesKeepends_append (by decide) (by decide), List.map_cons,
    List.rdropWhile_concat_pos _ _ _ (by decide), hline.rdropWhile_eq, ← splitlines]

theorem headerFields_of_first {first rest : Str} (hline : SingleLine first) (hcolon : ':' ∉ first) :
    headerFields (first ++ '\n' :: rest) = fieldsIn (first ++ '\n' :: rest) := by
  have hfirst : headerField first = none := if_neg hcolon
  rw [headerFields, fieldsIn, splitlines_first hline, List.tail_cons,
    List.filterMap_cons_none hfirst]

theorem first_of_isProjection {content : Str} (h : isProjection content = true) :
    ∃ first rest, content = first ++ '\n' :: rest ∧ SingleLine first ∧ ':' ∉ first ∧
      ∀ rest, isProjection (first ++ '\n' :: rest) = true := by
  have hfirst : ∃ first, toolResultProjectionPrefix = first ++ ['\n'] ∧ SingleLine first ∧
      ':' ∉ first := ⟨"[tool_result_projection]".toList, by decide, by decide, by decide⟩
  have hsecond : ∃ first, aggregateToolResultProjectionPrefix = first ++ ['\n'] ∧
      SingleLine first ∧ ':' ∉ first :=
    ⟨"[aggregate_tool_result_compacted]".toList, by decide, by decide, by decide⟩
  have hstart : ∀ content, isProjection content = true ↔ toolResultProjectionPrefix <+: content ∨
      aggregateToolResultProjectionPrefix <+: content := by
    intro content
    rw [isProjection, Bool.or_eq_true, List.isPrefixOf_iff_prefix, List.isPrefixOf_iff_prefix]
  simp only [hstart] at h ⊢
  generalize toolResultProjectionPrefix = start at *
  generalize aggregateToolResultProjectionPrefix = other at *
  obtain ⟨first, rfl, hline, hcolon⟩ := hfirst
  obtain ⟨second, rfl, hline', hcolon'⟩ := hsecond
  obtain ⟨rest, rfl⟩ | ⟨rest, rfl⟩ := h
  · exact ⟨first, rest, by simp, hline, hcolon, fun rest => .inl ⟨rest, by simp⟩⟩
  · exact ⟨second, rest, by simp, hline', hcolon', fun rest => .inr ⟨rest, by simp⟩⟩

theorem headerFields_of_isProjection {content : Str} (h : isProjection content = true) :
    headerFields content = fieldsIn content := by
  obtain ⟨first, rest, rfl, hline, hcolon, -⟩ := first_of_isProjection h
  exact headerFields_of_first hline hcolon

/-! ### Lines that are kept -/

def beginsWith (key : String) (line : Str) : Bool := (key.toList ++ [':']).isPrefixOf (strip line)

def spelledValue (key : String) (content : Str) : Option Str :=
  ((splitlines content).tail.find? (beginsWith key)).map fun line => strip (afterFirst ':' line)

section

variable {key : String} {line : Str}

theorem colon_notMem_of_isSpace {front : Str} (hfront : ∀ c ∈ front, isSpace c = true) :
    ':' ∉ front :=
  fun hmem => absurd (hfront ':' hmem) (by decide)

theorem headerField_of_beginsWith (hcolon : ':' ∉ key.toList)
    (hstrip : strip key.toList = key.toList) (h : beginsWith key line = true) :
    headerField line = some (key.toList, strip (afterFirst ':' line)) := by
  rw [beginsWith, List.isPrefixOf_iff_prefix] at h
  obtain ⟨more, hmore⟩ := h
  obtain ⟨front, back, hline, hspace⟩ := exists_around_strip line
  have hwhole : line = (front ++ key.toList) ++ ':' :: (more ++ back) := by
    rw [hline, ← hmore]
    simp
  have hfront : ':' ∉ front ++ key.toList := by
    rw [List.mem_append, not_or]
    exact ⟨colon_notMem_of_isSpace hspace, hcolon⟩
  have hmem : ':' ∈ line := by
    rw [hwhole]
    simp
  have hbefore : beforeFirst ':' line = front ++ key.toList := by
    rw [hwhole]
    exact beforeFirst_append hfront
  rw [headerField, if_pos hmem, hbefore, strip_append hspace, hstrip]

theorem head_of_match (h : "- L".toList <+: strip line) {field : Str × Str}
    (hfield : headerField line = some field) : field.1.head? = some '-' := by
  obtain ⟨more, hmore⟩ := h
  obtain ⟨front, back, hline, hspace⟩ := exists_around_strip line
  have hwhole : line = front ++ '-' :: (" L".toList ++ more ++ back) := by
    rw [hline, ← hmore]
    simp
  have hfront : ∀ c ∈ front ++ ['-'], (c != ':') = true := by
    intro c hc
    rw [bne_iff_ne]
    rintro rfl
    rw [List.mem_append] at hc
    exact hc.elim (colon_notMem_of_isSpace hspace) (by decide)
  have hbefore : ∃ tail, beforeFirst ':' line = front ++ '-' :: tail := by
    refine ⟨(" L".toList ++ more ++ back).takeWhile (· != ':'), ?_⟩
    rw [hwhole, ← List.singleton_append, ← List.append_assoc, beforeFirst,
      List.takeWhile_append_of_pos hfront, List.append_assoc, List.singleton_append]
  obtain ⟨tail, hbefore⟩ := hbefore
  obtain ⟨rest, hrest⟩ := strip_cons (c := '-') (by decide) tail
  rw [headerField, hbefore, strip_append hspace, hrest] at hfield
  split_ifs at hfield
  obtain rfl := Option.some.inj hfield
  rfl

def headerNames : List String :=
  ["tool_result_handle", "sha256", "original_chars", "preview_complete", "retrieve_hint",
    "search_hints", "signal_scan", "signal_next_call"]

theorem isPreserved_iff : isPreserved line = true ↔
    (∃ name ∈ headerNames, beginsWith name line = true) ∨ "- L".toList <+: strip line := by
  have hprefixes : headerPrefixes.map String.toList =
      headerNames.map fun name => name.toList ++ [':'] := by decide
  have hany : (headerPrefixes.any fun start => start.toList.isPrefixOf (strip line)) =
      headerNames.any fun name => beginsWith name line := by
    have h := congrArg (List.any · fun start => start.isPrefixOf (strip line)) hprefixes
    rw [List.any_map, List.any_map] at h
    exact h
  rw [isPreserved, hany, Bool.or_eq_true, List.any_eq_true, List.isPrefixOf_iff_prefix]

theorem lookup_preserved_cons (hkey : key ∈ headerNames) (rest : List Str) :
    (((line :: rest).filter isPreserved).filterMap headerField).lookup key.toList =
      if beginsWith key line = true then some (strip (afterFirst ':' line))
      else ((rest.filter isPreserved).filterMap headerField).lookup key.toList := by
  have hnames : ∀ name ∈ headerNames, ':' ∉ name.toList ∧ strip name.toList = name.toList := by
    decide
  by_cases hbegins : beginsWith key line = true
  · have hpreserved : isPreserved line = true := isPreserved_iff.mpr (.inl ⟨key, hkey, hbegins⟩)
    obtain ⟨hcolon, hstrip⟩ := hnames key hkey
    rw [if_pos hbegins, List.filter_cons_of_pos hpreserved,
      List.filterMap_cons_some (headerField_of_beginsWith hcolon hstrip hbegins),
      List.lookup_cons_self]
  · rw [if_neg hbegins, List.filter_cons]
    split_ifs with hpreserved
    · cases hfield : headerField line with
      | none => rw [List.filterMap_cons_none hfield]
      | some field =>
          have hne : (key.toList == field.1) = false := by
            rw [beq_eq_false_iff_ne]
            intro hsame
            obtain ⟨name, hname, hbegin⟩ | hmatch := isPreserved_iff.mp hpreserved
            · obtain ⟨hcolon, hstrip⟩ := hnames name hname
              rw [headerField_of_beginsWith hcolon hstrip hbegin] at hfield
              obtain rfl := Option.some.inj hfield
              obtain rfl := String.toList_inj.mp hsame
              exact hbegins hbegin
            · have hdash := head_of_match hmatch hfield
              have hheads : ∀ name ∈ headerNames, name.toList.head? ≠ some '-' := by decide
              exact hheads key hkey (hsame ▸ hdash)
          rw [List.filterMap_cons_some hfield, List.lookup_cons, hne]
    · rfl

theorem lookup_preserved (hkey : key ∈ headerNames) (lines : List Str) :
    ((lines.filter isPreserved).filterMap headerField).lookup key.toList =
      (lines.find? (beginsWith key)).map fun line => strip (afterFirst ':' line) := by
  induction lines with
  | nil => rfl
  | cons line rest ih =>
      rw [lookup_preserved_cons hkey, List.find?_cons, ih]
      cases beginsWith key line <;> rfl

end

/-! ### References of stubs -/

theorem reference_of_isProjection {content : Str} (h : isProjection content = true)
    (reference : Str × Str) :
    recoverableToolResultReference runtime content = some reference ↔
      (fieldsIn content).lookup "tool_result_handle".toList = some reference.1 ∧
        (fieldsIn content).lookup "sha256".toList = some reference.2 ∧
          isHandle reference.1 = true ∧ isSha256 reference.2 = true := by
  have hnone : isHandle [] = false ∧ isSha256 [] = false := by decide
  rw [recoverableToolResultReference, if_pos h, headerFields_of_isProjection h, fieldOf, fieldOf,
    checkedReference]
  generalize (fieldsIn content).lookup "tool_result_handle".toList = handle
  generalize (fieldsIn content).lookup "sha256".toList = digest
  constructor
  · intro href
    split_ifs at href with hhandle hdigest
    obtain rfl := Option.some.inj href
    rw [Bool.not_eq_false] at hhandle hdigest
    cases handle with
    | none => exact absurd (hhandle.symm.trans hnone.1) (by decide)
    | some handle =>
        cases digest with
        | none => exact absurd (hdigest.symm.trans hnone.2) (by decide)
        | some digest => exact ⟨rfl, rfl, hhandle, hdigest⟩
  · rintro ⟨rfl, rfl, hhandle, hdigest⟩
    show (if isHandle reference.1 = false then none else
      if isSha256 reference.2 = false then none else some (reference.1, reference.2)) =
        some reference
    rw [hhandle, hdigest]
    rfl

theorem lowerHex_facts {c : Char} (h : isLowerHex c = true) :
    isSpace c = false ∧ isLineBoundary c = false := by
  have hall : ∀ c ∈ "0123456789abcdef".toList, isSpace c = false ∧ isLineBoundary c = false := by
    decide
  exact hall c (of_decide_eq_true h)

theorem isSha256_facts {digest : Str} (h : isSha256 digest = true) :
    strip digest = digest ∧ SingleLine digest := by
  rw [isSha256, Bool.and_eq_true, List.all_eq_true] at h
  constructor
  · exact strip_eq_self fun c hc => (lowerHex_facts (h.2 c hc)).1
  · exact fun c hc => (lowerHex_facts (h.2 c hc)).2

theorem isHandle_facts {handle : Str} (h : isHandle handle = true) :
    strip handle = handle ∧ SingleLine handle := by
  rw [isHandle, Bool.and_eq_true, Bool.and_eq_true, List.isPrefixOf_iff_prefix,
    List.all_eq_true] at h
  obtain ⟨⟨⟨digits, rfl⟩, -⟩, hdigits⟩ := h
  have hmark : ∀ c ∈ "tr-".toList, isSpace c = false ∧ isLineBoundary c = false := by decide
  have hdrop : ("tr-".toList ++ digits).drop 3 = digits := rfl
  rw [hdrop] at hdigits
  have hall : ∀ c ∈ "tr-".toList ++ digits, isSpace c = false ∧ isLineBoundary c = false := by
    intro c hc
    obtain hc | hc := List.mem_append.mp hc
    · exact hmark c hc
    · exact lowerHex_facts (hdigits c hc)
  exact ⟨strip_eq_self fun c hc => (hall c hc).1, fun c hc => (hall c hc).2⟩

def IsLabel (label : String) : Prop :=
  ':' ∉ label.toList ∧ strip label.toList = label.toList ∧ SingleLine label.toList

instance (label : String) : Decidable (IsLabel label) := inferInstanceAs (Decidable (_ ∧ _))

theorem fieldsIn_labelled (label : String) (hlabel : IsLabel label) {value : Str}
    (hvalue : SingleLine value) :
    fieldsIn (labelled label value) = [(label.toList, strip value)] := by
  obtain ⟨hcolon, hstrip, hline⟩ := hlabel
  have hwhole : labelled label value = label.toList ++ ':' :: ' ' :: value := by
    rw [labelled, List.append_assoc]
    rfl
  have hsingle : SingleLine (labelled label value) := by
    rw [hwhole, singleLine_append, singleLine_cons, singleLine_cons]
    exact ⟨hline, rfl, rfl, hvalue⟩
  have hmem : ':' ∈ labelled label value := by
    rw [hwhole]
    simp
  have hspace : strip (' ' :: value) = strip value :=
    strip_append (by decide : ∀ c ∈ [' '], isSpace c = true) value
  rw [fieldsIn_singleLine hsingle, headerField, if_pos hmem, hwhole, beforeFirst_append hcolon,
    afterFirst_append hcolon, hstrip, hspace]
  rfl

def ownFields (text : Str) : List (Str × Str) :=
  [("original_chars".toList, strip (decimal text.length)), ("sha256".toList, runtime.sha256 text),
    ("omitted_chars".toList, strip (decimal (text.length - 480))),
    ("reason".toList, "historical payload omitted from later-turn provider replay.".toList)]

def endFields (text : Str) : List (Str × Str) :=
  ("head".toList, []) :: (fieldsIn (text.take 240) ++
    if lastPart text = text.take 240 then []
    else ("tail".toList, []) :: fieldsIn (lastPart text))

theorem fieldsIn_compactHistoricalText {text : Str} (hlong : 480 < text.length) (label : String)
    (hlabel : ':' ∉ ('[' :: label.toList) ++ "_compacted]".toList)
    (hline : SingleLine (('[' :: label.toList) ++ "_compacted]".toList))
    (metadata : List (String × Str)) :
    fieldsIn (compactHistoricalText runtime text label metadata) = ownFields runtime text ++
      ((metadata.flatMap fun field => fieldsIn (labelled field.1 field.2)) ++ endFields text) := by
  have hfirst : fieldsIn (('[' :: label.toList) ++ "_compacted]".toList) = [] := by
    rw [fieldsIn_singleLine hline, headerField, if_neg hlabel]
    rfl
  have hchars := fieldsIn_labelled "original_chars" (by decide)
    (singleLine_decimal text.length)
  have hsha := fieldsIn_labelled "sha256" (by decide)
    (isSha256_facts (runtime.sha256 text).2).2
  have homitted := fieldsIn_labelled "omitted_chars" (by decide)
    (singleLine_decimal (text.length - 480))
  have hreason : fieldsIn
      "reason: historical payload omitted from later-turn provider replay.".toList =
        [("reason".toList, "historical payload omitted from later-turn provider replay.".toList)] := by
    decide
  have hhead : fieldsIn "head:".toList = [("head".toList, [])] := by decide
  have htail : fieldsIn "tail:".toList = [("tail".toList, [])] := by decide
  have hdots : fieldsIn "...".toList = [] := by decide
  have hpreview : (previewLines (text.take 240) (lastPart text)).flatMap fieldsIn =
      endFields text := by
    rw [previewLines, endFields]
    by_cases hsame : lastPart text = text.take 240
    · rw [if_neg fun hshown => hshown.2 hsame, if_pos hsame]
      simp only [List.append_nil, List.flatMap_cons, List.flatMap_nil, hhead, List.singleton_append]
    · rw [if_pos ⟨lastPart_ne_nil hlong, hsame⟩, if_neg hsame]
      simp only [List.cons_append, List.nil_append, List.flatMap_cons, List.flatMap_nil,
        List.append_nil, hhead, htail, hdots]
  rw [compactHistoricalText, headTail_of_long hlong, fieldsIn_unlines, List.flatMap_append,
    List.flatMap_append, hpreview, ownFields, List.flatMap_map, List.append_assoc]
  congr 1
  simp only [List.flatMap_cons, List.flatMap_nil, hfirst, hchars, hsha, homitted, hreason,
    (isSha256_facts (runtime.sha256 text).2).1]
  rfl

theorem lookup_append_self_or {key : Str} (front back : List (Str × Str)) :
    (front ++ back ++ back).lookup key = (front ++ back).lookup key := by
  rw [List.lookup_append, List.lookup_append]
  cases front.lookup key with
  | some value => rfl
  | none => cases back.lookup key <;> rfl

theorem lookup_endFields {key : Str} (hhead : (key == "head".toList) = false)
    (htail : (key == "tail".toList) = false) (text : Str) :
    (endFields text).lookup key =
      (fieldsIn (text.take 240) ++ fieldsIn (lastPart text)).lookup key := by
  rw [endFields, List.lookup_cons, hhead]
  by_cases hsame : lastPart text = text.take 240
  · rw [if_pos hsame, hsame, List.append_nil]
    exact (lookup_append_self_or [] (fieldsIn (text.take 240))).symm
  · rw [if_neg hsame, List.lookup_append, List.lookup_append, List.lookup_cons, htail]

/-! ### Projections of projections -/

def handleBehind (content toolUseId : Str) : Option Str :=
  (fieldsIn (labelled "tool_use_id" toolUseId) ++
    (fieldsIn (content.take 240) ++ fieldsIn (lastPart content))).lookup "tool_result_handle".toList

/-- The lines that begin with the keys and a colon give the reference that is read from the lines
with the keys. Without such a line the digest is that of the content itself. -/
def StillSpelled (content toolUseId : Str) (reference : Str × Str) : Prop :=
  (spelledValue "tool_result_handle" content).or (handleBehind content toolUseId) =
      some reference.1 ∧
    (spelledValue "sha256" content).getD (runtime.sha256 content) = reference.2

section

variable {content : Str}

theorem isProjection_projection (h : isProjection content = true) (toolUseId : Str) :
    isProjection (compactHistoricalToolResultProjection runtime content toolUseId) = true := by
  obtain ⟨first, rest, rfl, hline, -, hprojection⟩ := first_of_isProjection h
  have hjoin : ∀ front back : List Str, back ≠ [] →
      unlines ([first] ++ front ++ back) = first ++ '\n' :: unlines (front ++ back) := by
    intro front back hback
    rw [List.append_assoc, List.singleton_append, unlines, List.intercalate_cons_of_ne_nil
      (List.append_ne_nil_of_right_ne_nil front hback), List.append_assoc, List.singleton_append]
    rfl
  rw [compactHistoricalToolResultProjection, splitlines_first hline]
  show isProjection (unlines ([first] ++ _ ++ _)) = true
  rw [hjoin _ _ (List.cons_ne_nil _ _)]
  exact hprojection _

theorem fieldsIn_projection (h : isProjection content = true) (hlong : 480 < content.length)
    (toolUseId : Str) :
    fieldsIn (compactHistoricalToolResultProjection runtime content toolUseId) =
      ((splitlines content).tail.filter isPreserved).filterMap headerField ++
        (("historical_replay_projection".toList,
            "recoverability header preserved; projected body compacted.".toList) ::
          ("historical_replay_sha256".toList, (runtime.sha256 content).1) ::
            (ownFields runtime content ++
              (fieldsIn (labelled "tool_use_id" toolUseId) ++ endFields content))) := by
  have hkept : ∀ lines : List Str, (∀ line ∈ lines, SingleLine line) →
      lines.flatMap fieldsIn = lines.filterMap headerField := by
    intro lines hlines
    induction lines with
    | nil => rfl
    | cons line rest ih =>
        obtain ⟨hline, hrest⟩ := List.forall_mem_cons.mp hlines
        rw [List.flatMap_cons, fieldsIn_singleLine hline, ih hrest, List.filterMap_cons]
        cases headerField line <;> rfl
  have hlines : ∀ line ∈ (splitlines content).tail.filter isPreserved, SingleLine line := by
    intro line hline
    exact singleLine_of_mem_splitlines (List.mem_of_mem_tail (List.mem_filter.mp hline).1)
  have hfirst : ((splitlines content).take 1).flatMap fieldsIn = [] := by
    obtain ⟨first, rest, rfl, hline, hcolon, -⟩ := first_of_isProjection h
    have hnone : headerField first = none := if_neg hcolon
    rw [splitlines_first hline, List.take_succ_cons, List.take_zero, List.flatMap_cons,
      fieldsIn_singleLine hline, hnone]
    rfl
  have hline : SingleLine
      "recoverability header preserved; projected body compacted.".toList := by decide
  have hnote := fieldsIn_labelled "historical_replay_projection" (by decide) hline
  have hstrip : strip "recoverability header preserved; projected body compacted.".toList =
      "recoverability header preserved; projected body compacted.".toList := by decide
  have hsha := fieldsIn_labelled "historical_replay_sha256" (by decide)
    (isSha256_facts (runtime.sha256 content).2).2
  have hbody := fieldsIn_compactHistoricalText runtime hlong
    "historical_tool_result_projection_body" (by decide) (by decide)
    [("tool_use_id", toolUseId)]
  rw [hstrip] at hnote
  rw [(isSha256_facts (runtime.sha256 content).2).1] at hsha
  rw [compactHistoricalToolResultProjection, fieldsIn_unlines, List.flatMap_append,
    List.flatMap_append, hfirst, hkept _ hlines, List.nil_append]
  simp only [List.flatMap_cons, List.flatMap_nil, List.append_nil, hnote, hsha, hbody,
    List.singleton_append]

theorem reference_projection_iff (h : isProjection content = true) (hlong : 480 < content.length)
    (toolUseId : Str) {reference : Str × Str}
    (href : recoverableToolResultReference runtime content = some reference) :
    recoverableToolResultReference runtime
        (compactHistoricalToolResultProjection runtime content toolUseId) = some reference ↔
      StillSpelled runtime content toolUseId reference := by
  obtain ⟨-, -, hhandle, hdigest⟩ := (reference_of_isProjection runtime h reference).mp href
  rw [reference_of_isProjection runtime (isProjection_projection runtime h toolUseId),
    fieldsIn_projection runtime h hlong, List.lookup_append, List.lookup_append,
    lookup_preserved (by decide), lookup_preserved (by decide), ← spelledValue, ← spelledValue,
    StillSpelled]
  have hbehind : ∀ back : List (Str × Str),
      List.lookup "tool_result_handle".toList
        (("historical_replay_projection".toList,
            "recoverability header preserved; projected body compacted.".toList) ::
          ("historical_replay_sha256".toList, (runtime.sha256 content).1) ::
            (ownFields runtime content ++ back)) = back.lookup "tool_result_handle".toList :=
    fun back => rfl
  have hown : ∀ back : List (Str × Str),
      List.lookup "sha256".toList
        (("historical_replay_projection".toList,
            "recoverability header preserved; projected body compacted.".toList) ::
          ("historical_replay_sha256".toList, (runtime.sha256 content).1) ::
            (ownFields runtime content ++ back)) = some (runtime.sha256 content).1 :=
    fun back => rfl
  have hends : (fieldsIn (labelled "tool_use_id" toolUseId) ++ endFields content).lookup
      "tool_result_handle".toList = handleBehind content toolUseId := by
    rw [handleBehind, List.lookup_append, List.lookup_append, lookup_endFields (by decide)
      (by decide)]
  rw [hbehind, hown, hends]
  cases spelledValue "sha256" content with
  | none => simp [hhandle, hdigest]
  | some digest => simp [hhandle, hdigest]

/-! ### The other envelopes -/

theorem exists_compactHistoricalText (text : Str) (label : String)
    (metadata : List (String × Str)) : ∃ rest,
      compactHistoricalText runtime text label metadata =
        (('[' :: label.toList) ++ "_compacted]".toList) ++ '\n' :: rest := by
  have hjoin : ∀ (first : Str) (rest : List Str), rest ≠ [] →
      unlines (first :: rest) = first ++ '\n' :: unlines rest := by
    intro first rest hrest
    rw [unlines, List.intercalate_cons_of_ne_nil hrest, List.append_assoc, List.singleton_append]
    rfl
  rw [compactHistoricalText, List.cons_append, List.cons_append, hjoin _ _ (by simp)]
  exact ⟨_, rfl⟩

theorem isProjection_of_historical (rest : Str) :
    isProjection (historicalToolResultCompactedPrefix ++ rest) = false := by
  have hmismatch : ∀ start : Str, 2 ≤ start.length → start.take 2 ≠ ['[', 'h'] →
      start.isPrefixOf (historicalToolResultCompactedPrefix ++ rest) = false := by
    intro start hlength hne
    rw [← Bool.not_eq_true, List.isPrefixOf_iff_prefix]
    rintro ⟨back, hback⟩
    apply hne
    rw [← List.take_append_of_le_length hlength, hback]
    rfl
  rw [isProjection, hmismatch _ (by decide) (by decide), hmismatch _ (by decide) (by decide)]
  rfl

theorem reference_compactHistoricalText (hlong : 480 < content.length) (toolUseId : Str)
    {reference : Str × Str} (hhandle : isHandle reference.1 = true)
    (hdigest : isSha256 reference.2 = true) :
    recoverableToolResultReference runtime (compactHistoricalText runtime content
      "historical_tool_result" (resultMetadata reference toolUseId)) = some reference := by
  have hfields := fieldsIn_compactHistoricalText runtime hlong
    "historical_tool_result" (by decide) (by decide) (resultMetadata reference toolUseId)
  have hline : SingleLine
      "Use retrieve_tool_result with this handle to inspect the original raw output.".toList := by
    decide
  have hhint := fieldsIn_labelled "retrieve_hint" (by decide) hline
  have hfirst := fieldsIn_labelled "tool_result_handle" (by decide)
    (isHandle_facts hhandle).2
  have hsecond := fieldsIn_labelled "tool_result_sha256" (by decide)
    (isSha256_facts hdigest).2
  rw [(isHandle_facts hhandle).1] at hfirst
  rw [(isSha256_facts hdigest).1] at hsecond
  rw [resultMetadata] at hfields
  simp only [List.flatMap_cons, List.flatMap_nil, hhint, hfirst, hsecond, List.cons_append,
    List.nil_append, List.append_nil] at hfields
  obtain ⟨rest, hrest⟩ := exists_compactHistoricalText runtime content "historical_tool_result"
    (resultMetadata reference toolUseId)
  have hheader : headerFields
      ((('[' :: "historical_tool_result".toList) ++ "_compacted]".toList) ++ '\n' :: rest) =
        fieldsIn ((('[' :: "historical_tool_result".toList) ++ "_compacted]".toList) ++ '\n' :: rest) :=
    headerFields_of_first (by decide) (by decide)
  have hfront : (('[' :: "historical_tool_result".toList) ++ "_compacted]".toList) ++ '\n' :: rest =
      historicalToolResultCompactedPrefix ++ rest := rfl
  rw [← hrest, resultMetadata, hfields] at hheader
  rw [resultMetadata] at hrest ⊢
  rw [recoverableToolResultReference, hheader, hrest, hfront, isProjection_of_historical,
    if_neg Bool.false_ne_true, if_pos (List.isPrefixOf_iff_prefix.mpr (List.prefix_append _ _))]
  show checkedReference reference.1 reference.2 = some reference
  rw [checkedReference, hhandle, hdigest]
  rfl

theorem reference_compactedResult_iff (hlong : historicalToolResultMaxChars < content.length)
    (toolUseId : Str) {reference : Str × Str}
    (href : recoverableToolResultReference runtime content = some reference) :
    recoverableToolResultReference runtime (compactedResult runtime content toolUseId reference) =
        recoverableToolResultReference runtime content ↔
      (isProjection content = true → StillSpelled runtime content toolUseId reference) := by
  have hlength : 480 < content.length := by
    rw [historicalToolResultMaxChars] at hlong
    omega
  rw [compactedResult, href]
  cases hprojection : isProjection content with
  | true =>
      rw [if_pos rfl, reference_projection_iff runtime hprojection hlength toolUseId href]
      simp
  | false =>
      obtain ⟨hhandle, hdigest⟩ := valid_of_reference runtime href
      rw [if_neg Bool.false_ne_true,
        reference_compactHistoricalText runtime hlength toolUseId hhandle hdigest]
      simp

end

/-! ### Messages -/

section

variable (recoverableReferences : Str × Str → Prop) [DecidablePred recoverableReferences]

def SameReference : Block σ β → Block σ β → Prop
  | .toolResult block, .toolResult projected =>
      recoverableToolResultReference runtime projected.content.asText =
        recoverableToolResultReference runtime block.content.asText
  | .toolUse _, .toolUse _ => True
  | .other _, .other _ => True
  | _, _ => False

def ReferencesKept (messages projected : List (Message σ β)) : Prop :=
  List.Forall₂ (fun message next =>
    List.Forall₂ (SameReference runtime) message.blocks next.blocks) messages projected

def BlockSpelled : Block σ β → Prop
  | .toolResult block =>
      historicalToolResultMaxChars < block.content.asText.length →
        isProjection block.content.asText = true →
          ∀ reference, recoverableToolResultReference runtime block.content.asText =
              some reference → recoverableReferences reference →
            StillSpelled runtime block.content.asText block.toolUseId reference
  | _ => True

theorem sameReference_iff (block : Block σ β) :
    SameReference runtime block (projectBlock runtime recoverableReferences block).1 ↔
      BlockSpelled runtime recoverableReferences block := by
  cases block with
  | toolUse block => simp [projectBlock, SameReference, BlockSpelled]
  | other block => simp [projectBlock, SameReference, BlockSpelled]
  | toolResult block =>
      have htext : ∀ text, (ResultContent.text text).asText = text := fun _ => rfl
      simp only [projectBlock, projectHistoricalToolResult, SameReference, BlockSpelled]
      by_cases hlong : historicalToolResultMaxChars < block.content.asText.length
      · rw [if_neg (Nat.not_le.mpr hlong), forall_prop_of_true hlong]
        cases href : recoverableToolResultReference runtime block.content.asText with
        | none => simp [href]
        | some reference =>
            by_cases hrecover : recoverableReferences reference
            · simp only [if_pos hrecover, htext]
              rw [← href, reference_compactedResult_iff runtime hlong block.toolUseId href, href]
              constructor
              · intro h hprojection other hother _
                obtain rfl := Option.some.inj hother
                exact h hprojection
              · intro h hprojection
                exact h hprojection reference rfl hrecover
            · simp only [if_neg hrecover, href, true_iff]
              intro _ other hother hrecovered
              obtain rfl := Option.some.inj hother
              exact absurd hrecovered hrecover
      · rw [if_pos (Nat.not_lt.mp hlong)]
        simp [hlong]

theorem blocks_projectMessage (message : Message σ β) (preserveReasoningContent : Bool) :
    (projectMessage runtime recoverableReferences preserveReasoningContent message).blocks =
      message.blocks.map fun block => (projectBlock runtime recoverableReferences block).1 := by
  rw [Message.blocks, Message.blocks, projectMessage]
  cases message.content with
  | text text => rfl
  | blocks blocks => simp only [projectContent_blocks]

/-- The references of all results are kept exactly when every projection that is cut down spells its
reference out. -/
theorem references_kept_iff (messages : List (Message σ β)) (preserveReasoningContent : Bool) :
    ReferencesKept runtime messages (projectHistoricalToolPayloads runtime recoverableReferences
        messages preserveReasoningContent) ↔
      ∀ message ∈ messages, ∀ block ∈ message.blocks,
        BlockSpelled runtime recoverableReferences block := by
  rw [ReferencesKept, projectHistoricalToolPayloads, List.forall₂_map_right_iff,
    List.forall₂_same]
  apply forall₂_congr
  intro message _
  rw [blocks_projectMessage, List.forall₂_map_right_iff, List.forall₂_same]
  exact forall₂_congr fun block _ => sameReference_iff runtime recoverableReferences block

end

/-! ### A header with a space in front of the colon -/

def spacedReference : Str × Str := ("tr-".toList ++ List.replicate 32 'a', List.replicate 64 '1')

@[irreducible] def spacedHeader : Str :=
  unlines ["[tool_result_projection]".toList,
    labelled "tool_result_handle" spacedReference.1,
    "sha256 : ".toList ++ spacedReference.2,
    List.replicate 4000 'x']

def spacedResult : Message Unit Unit :=
  ⟨.user, .blocks [.toolResult ⟨"call_1".toList, .text spacedHeader, false, none⟩], none⟩

/-- The digest of the record gives way to the digest of the text that was cut down. -/
theorem spaced_digest_is_lost :
    ¬ ReferencesKept zeroDigest [spacedResult]
      (projectHistoricalToolPayloads zeroDigest (· = spacedReference) [spacedResult] false) := by
  have hlong : historicalToolResultMaxChars < spacedHeader.length := by decide +kernel
  have hprojection : isProjection spacedHeader = true := by decide +kernel
  have hreference : recoverableToolResultReference zeroDigest spacedHeader =
      some spacedReference := by decide +kernel
  have hdigest : (spelledValue "sha256" spacedHeader).getD (zeroDigest.sha256 spacedHeader).1 ≠
      spacedReference.2 := by decide +kernel
  intro h
  obtain ⟨hmessage, -⟩ := List.forall₂_cons.mp h
  have hblocks : spacedResult.blocks =
      [.toolResult ⟨"call_1".toList, .text spacedHeader, false, none⟩] := rfl
  rw [blocks_projectMessage, List.forall₂_map_right_iff, List.forall₂_same, hblocks,
    List.forall_mem_singleton, sameReference_iff] at hmessage
  exact hdigest (hmessage hlong hprojection spacedReference hreference rfl).2

end OpenStarry.Replay
