import OpenStarry.Cron.Names

/-!
# Which cron expressions the parser accepts

Against the grammar. The parser is right about an expression unless it reads each of its parts after
putting names in everywhere, and in some part that was not called for or a stepped range runs
backwards.
-/

namespace OpenStarry.Cron

open Lib Lib.Text

/-! ### Fields -/

def partsOf (token : Str) : List Str := (token.splitOn ',').map strip

def Documented (field : CronFieldName) (token : Str) : Prop :=
  ∀ part ∈ partsOf token, ∃ set, Denotes field field.names true part set

def InUnion (field : CronFieldName) (token : Str) (v : Nat) : Prop :=
  ∃ part ∈ partsOf token, ∃ set, Denotes field field.names true part set ∧ v ∈ set

def ReadsLoosely (field : CronFieldName) (part : Str) : Prop :=
  ∃ set, Denotes field [] false (resolveNames field.names part) set

def RunsBackward (field : CronFieldName) (part : Str) : Prop :=
  ∃ (a b t : Str) (x y : Nat), part = (a ++ '-' :: b) ++ '/' :: t ∧ '-' ∉ a ∧
    IsValue field [] a x ∧ IsValue field [] b y ∧ y < x

def Straight (field : CronFieldName) (part : Str) : Prop :=
  resolveNames field.names part = substituteValues field.names part ∧
    ¬ RunsBackward field (resolveNames field.names part)

/-! ### One part -/

section

variable {field : CronFieldName} {names : List (Str × Nat)} {part : Str} {set : Finset Nat}

theorem IsRange.loosen {s : Str} {ends : Nat × Nat} (h : IsRange field names true s ends) :
    IsRange field names false s ends := by
  cases h with
  | all => exact .all
  | ends hhyphen hstart hstop horder => exact .ends hhyphen hstart hstop nofun

theorem Denotes.loosen (h : Denotes field names true part set) :
    Denotes field names false part set := by
  cases h with
  | range hrange => exact .range hrange
  | value hhyphen hvalue => exact .value hhyphen hvalue
  | rangeStep hrange hstep hpos => exact .rangeStep hrange.loosen hstep hpos
  | valueStep hhyphen hvalue hstep hpos => exact .valueStep hhyphen hvalue hstep hpos

theorem Denotes.tighten (h : Denotes field [] false part set) (hforward : ¬ RunsBackward field part) :
    Denotes field [] true part set := by
  cases h with
  | range hrange => exact .range hrange
  | value hhyphen hvalue => exact .value hhyphen hvalue
  | valueStep hhyphen hvalue hstep hpos => exact .valueStep hhyphen hvalue hstep hpos
  | @rangeStep s t ends step hrange hstep hpos =>
      cases hrange with
      | all => exact .rangeStep .all hstep hpos
      | @ends a b x y hhyphen hstart hstop horder =>
          refine .rangeStep (.ends hhyphen hstart hstop fun _ => ?_) hstep hpos
          by_contra hback
          exact hforward ⟨a, b, t, x, y, rfl, hhyphen, hstart, hstop, Nat.not_le.mp hback⟩

theorem Denotes.not_runsBackward (h : Denotes field [] true part set) :
    ¬ RunsBackward field part := by
  rintro ⟨a, b, t, x, y, hpart, hhyphen, hstart, hstop, hback⟩
  have htable := isNameTable_nil
  have hslash : '/' ∉ a ++ '-' :: b :=
    (@IsRange.ends field [] false a b x y hhyphen hstart hstop
      fun h => absurd h Bool.false_ne_true).slash htable
  have hends : endsOf field [] true (a ++ '-' :: b) = none := by
    unfold endsOf
    rw [beforeFirst_append hhyphen, afterFirst_append hhyphen, (isValue_iff htable).mp hstart,
      (isValue_iff htable).mp hstop]
    exact if_pos ⟨rfl, hback⟩
  have hstar : a ++ '-' :: b ≠ ['*'] := fun h => absurd
    (h ▸ List.mem_append_right a List.mem_cons_self : '-' ∈ ['*']) (by decide)
  rw [denotes_iff htable, hpart, readPart, if_pos (List.mem_append_right _ List.mem_cons_self),
    beforeFirst_append hslash, boundsOf, if_neg hstar,
    if_pos (List.mem_append_right _ List.mem_cons_self), hends] at h
  obtain ⟨step, -, hbounds⟩ := Option.bind_eq_some_iff.mp h
  cases hbounds

theorem Denotes.unique {ordered : Bool} {set' : Finset Nat} (htable : IsNameTable names)
    (h : Denotes field names ordered part set) (h' : Denotes field names ordered part set') :
    set = set' := by
  rw [denotes_iff htable] at h h'
  exact Option.some.inj (h.symm.trans h')

theorem parsePart_eq_ok : parsePart field part = .ok set ↔ Denotes field [] false part set := by
  rw [denotes_iff isNameTable_nil, ← toOption_parsePart, toOption_eq_some]

theorem Denotes.straight (h : Denotes field field.names true part set) :
    Denotes field [] true (resolveNames field.names part) set ∧ Straight field part := by
  have hresolved := resolveNames_of_denotes field h
  have hplain : Denotes field [] true (substituteValues field.names part) set := by
    rw [denotes_iff isNameTable_nil, readPart_substituteValues]
    exact (denotes_iff (isNameTable_names field)).mp h
  rw [← hresolved] at hplain
  exact ⟨hplain, hresolved, hplain.not_runsBackward⟩

theorem denotes_of_straight (hstraight : Straight field part)
    (h : Denotes field [] false (resolveNames field.names part) set) :
    Denotes field field.names true part set := by
  have hplain := h.tighten hstraight.2
  rw [hstraight.1, denotes_iff isNameTable_nil, readPart_substituteValues] at hplain
  exact (denotes_iff (isNameTable_names field)).mpr hplain

theorem mem_steppedRange_start {start stop step : Nat} (h : start ≤ stop) :
    start ∈ steppedRange start stop step := by
  rw [steppedRange, Finset.mem_filter, Finset.mem_range, Nat.sub_self, Nat.zero_mod]
  exact ⟨Nat.lt_succ_of_le h, Nat.le_refl start, rfl⟩

theorem IsRange.le {s : Str} {ends : Nat × Nat} (h : IsRange field names true s ends) :
    ends.1 ≤ ends.2 := by
  cases h with
  | all => cases field <;> decide
  | ends hhyphen hstart hstop horder => exact horder rfl

theorem Denotes.nonempty (hnames : ∀ entry ∈ names, entry.2 ≤ field.hi) (h : Denotes field names true part set) :
    set.Nonempty := by
  cases h with
  | range hrange => exact ⟨_, mem_steppedRange_start hrange.le⟩
  | value hhyphen hvalue => exact ⟨_, Finset.mem_singleton_self _⟩
  | rangeStep hrange hstep hpos => exact ⟨_, mem_steppedRange_start hrange.le⟩
  | valueStep hhyphen hvalue hstep hpos =>
      refine ⟨_, mem_steppedRange_start ?_⟩
      cases hvalue with
      | int hread hlo hhi => exact hhi
      | name hentry hspelled => exact hnames _ hentry

end

/-! ### Splitting into fields -/

theorem splitFields_append_cons {c : Char} (hc : isSpace c = true) (s t : Str) :
    splitFields (s ++ c :: t) = splitFields s ++ splitFields t := by
  rw [splitFields, List.splitOnP_append_cons _ _ hc, List.filter_append]
  rfl

theorem splitFields_lstrip (s : Str) : splitFields (lstrip s) = splitFields s := by
  induction s with
  | nil => rfl
  | cons c s ih =>
      rw [lstrip]
      by_cases hc : isSpace c = true
      · rw [List.dropWhile_cons_of_pos hc]
        exact ih.trans (splitFields_append_cons hc [] s).symm
      · rw [List.dropWhile_cons_of_neg hc]

theorem splitFields_rstrip (s : Str) : splitFields (rstrip s) = splitFields s := by
  induction s using List.reverseRecOn with
  | nil => rfl
  | append_singleton s c ih =>
      rw [rstrip]
      by_cases hc : isSpace c = true
      · rw [List.rdropWhile_concat_pos _ _ _ hc, splitFields_append_cons hc]
        exact ih.trans (List.append_nil _).symm
      · rw [List.rdropWhile_concat_neg _ _ _ hc]

theorem splitFields_strip (s : Str) : splitFields (strip s) = splitFields s := by
  rw [strip, splitFields_rstrip, splitFields_lstrip]

theorem head?_splitFields {c : Char} (hc : isSpace c = false) (s : Str) :
    ∃ token rest, splitFields (c :: s) = (c :: token) :: rest := by
  rw [splitFields, List.splitOnP_cons_eq_if_modifyHead, hc]
  cases hpieces : s.splitOnP isSpace with
  | nil => exact absurd hpieces (List.splitOnP_ne_nil _ _)
  | cons first rest => exact ⟨first, rest.filter (· ≠ []), rfl⟩

/-! ### Whole fields -/

theorem mem_foldl_union {sets : List (Finset Nat)} {v : Nat} {seed : Finset Nat} :
    v ∈ sets.foldl (· ∪ ·) seed ↔ v ∈ seed ∨ ∃ set ∈ sets, v ∈ set := by
  induction sets generalizing seed with
  | nil => simp
  | cons set sets ih =>
      rw [List.foldl_cons, ih, Finset.mem_union, List.exists_mem_cons_iff, or_assoc]

theorem parseField_eq_ok {field : CronFieldName} {token : Str} {result : CronField} :
    parseField field token = .ok result ↔ ∃ sets : List (Finset Nat),
      List.Forall₂ (fun part set => Denotes field [] false (resolveNames field.names part) set)
        (partsOf token) sets ∧
      { values := sets.foldl (· ∪ ·) ∅, restricted := strip token ≠ ['*'] } = result := by
  unfold parseField partsOf
  rw [bind_eq_ok]
  simp only [mapM_eq_ok_iff_forall₂, parsePart_eq_ok, List.forall₂_map_left_iff, pure_eq_ok]

theorem exists_parseField {field : CronFieldName} {token : Str} :
    (∃ result, parseField field token = .ok result) ↔
      ∀ part ∈ partsOf token, ReadsLoosely field part := by
  simp only [parseField_eq_ok]
  constructor
  · intro ⟨_, sets, hsets, _⟩ part hpart
    obtain ⟨set, -, hset⟩ := exists_of_forall₂_left hsets part hpart
    exact ⟨set, hset⟩
  · intro h
    obtain ⟨sets, hsets⟩ := exists_forall₂ h
    exact ⟨_, sets, hsets, rfl⟩

theorem mem_parseField {field : CronFieldName} {token : Str} {result : CronField}
    (h : parseField field token = .ok result) {v : Nat} : v ∈ result.values ↔
      ∃ part ∈ partsOf token, ∃ set,
        Denotes field [] false (resolveNames field.names part) set ∧ v ∈ set := by
  obtain ⟨sets, hsets, rfl⟩ := parseField_eq_ok.mp h
  rw [mem_foldl_union]
  constructor
  · intro hmem
    obtain ⟨set, hset, hv⟩ := hmem.resolve_left (Finset.notMem_empty v)
    obtain ⟨part, hpart, hdenotes⟩ := exists_of_forall₂_right hsets set hset
    exact ⟨part, hpart, set, hdenotes, hv⟩
  · intro ⟨part, hpart, set, hset, hv⟩
    obtain ⟨other, hother, hdenotes⟩ := exists_of_forall₂_left hsets part hpart
    exact Or.inr ⟨other, hother, Denotes.unique isNameTable_nil hset hdenotes ▸ hv⟩

/-! ### Whole expressions -/

namespace CronExpression

def field (e : CronExpression) : CronFieldName → CronField
  | .minute => e.minute
  | .hour => e.hour
  | .dayOfMonth => e.dayOfMonth
  | .month => e.month
  | .dayOfWeek => e.dayOfWeek

end CronExpression

def HasFields (text : Str) (token : CronFieldName → Str) : Prop :=
  splitFields text =
    [token .minute, token .hour, token .dayOfMonth, token .month, token .dayOfWeek]

instance (text : Str) (token : CronFieldName → Str) : Decidable (HasFields text token) :=
  inferInstanceAs (Decidable (_ = _))

theorem IsValue.head?_ne_at {field : CronFieldName} {s : Str} {v : Nat} (h : IsValue field [] s v) :
    ∃ c rest, s = c :: rest ∧ c ≠ '@' := by
  cases h with
  | name hentry => exact absurd hentry List.not_mem_nil
  | int hread hlo hhi =>
      cases s with
      | nil =>
          have hnone : readInt [] = none := by decide
          rw [hnone] at hread
          exact absurd hread nofun
      | cons c rest =>
          refine ⟨c, rest, rfl, fun hat => ?_⟩
          have hchar := isIntChar_of_readInt hread c List.mem_cons_self
          rw [hat] at hchar
          exact absurd hchar (by decide)

theorem IsRange.head?_ne_at {field : CronFieldName} {ordered : Bool} {s : Str} {ends : Nat × Nat}
    (h : IsRange field [] ordered s ends) : ∃ c rest, s = c :: rest ∧ c ≠ '@' := by
  cases h with
  | all => exact ⟨'*', [], rfl, by decide⟩
  | ends hhyphen hstart hstop horder =>
      obtain ⟨c, rest, rfl, hc⟩ := hstart.head?_ne_at
      exact ⟨c, _, rfl, hc⟩

theorem Denotes.head?_ne_at {field : CronFieldName} {ordered : Bool} {part : Str}
    {set : Finset Nat} (h : Denotes field [] ordered part set) :
    ∃ c rest, part = c :: rest ∧ c ≠ '@' := by
  cases h with
  | range hrange => exact hrange.head?_ne_at
  | value hhyphen hvalue => exact hvalue.head?_ne_at
  | rangeStep hrange hstep hpos =>
      obtain ⟨c, rest, rfl, hc⟩ := hrange.head?_ne_at
      exact ⟨c, _, rfl, hc⟩
  | valueStep hhyphen hvalue hstep hpos =>
      obtain ⟨c, rest, rfl, hc⟩ := hvalue.head?_ne_at
      exact ⟨c, _, rfl, hc⟩

theorem length_splitFields_preset {expr meaning : Str}
    (h : presets.lookup expr = some meaning) : (splitFields expr).length = 1 := by
  have hall : ∀ preset ∈ presets, (splitFields preset.1).length = 1 := by decide +kernel
  obtain ⟨before, after, hpresets, -⟩ := List.lookup_eq_some_iff.mp h
  apply hall (expr, meaning)
  rw [hpresets]
  exact List.mem_append_right _ List.mem_cons_self

/-- A text of five fields that begins with `@` is no preset and has no minutes. -/
theorem at_sign_reads_nowhere {text : Str} {token : CronFieldName → Str}
    (hfields : HasFields text token) (hat : (strip text).head? = some '@') :
    (∀ e, parseCron text ≠ .ok e) ∧
      ∃ part ∈ partsOf (token .minute), ¬ ReadsLoosely .minute part := by
  have hsplit := (splitFields_strip text).trans hfields
  obtain ⟨rest, hrest⟩ : ∃ rest, strip text = '@' :: rest := by
    cases hstrip : strip text with
    | nil =>
        rw [hstrip] at hat
        exact absurd hat nofun
    | cons c rest =>
        rw [hstrip] at hat
        exact ⟨rest, congrArg (· :: rest) (Option.some.inj hat)⟩
  constructor
  · intro e he
    obtain ⟨expr, hexpr, -⟩ := bind_eq_ok.mp he
    rw [expandPreset, if_pos hat] at hexpr
    cases hlookup : presets.lookup (strip text) with
    | none =>
        rw [hlookup] at hexpr
        exact absurd hexpr nofun
    | some meaning =>
        have hone := length_splitFields_preset hlookup
        rw [hsplit] at hone
        exact absurd hone (Nat.succ_ne_succ_iff.mpr (Nat.succ_ne_zero 3))
  · obtain ⟨first, others, hfirst⟩ := head?_splitFields (show isSpace '@' = false by decide) rest
    rw [hrest, hfirst] at hsplit
    have htoken : token .minute = '@' :: first := (List.cons.inj hsplit).1.symm
    have hcomma : ('@' == ',') = false := by decide
    rw [partsOf, htoken, List.splitOn_cons_eq_if_modifyHead, hcomma]
    cases hpieces : first.splitOn ',' with
    | nil => exact absurd hpieces (List.splitOn_ne_nil _ _)
    | cons piece pieces =>
        refine ⟨strip ('@' :: piece), List.mem_cons_self, fun hreads => ?_⟩
        obtain ⟨set, hset⟩ := hreads
        obtain ⟨c, back, hpart, hc⟩ := hset.head?_ne_at
        obtain ⟨inner, hstrip⟩ := strip_cons (show isSpace '@' = false by decide) piece
        have hpart : '@' :: inner = c :: back := hstrip.symm.trans hpart
        exact hc (List.cons.inj hpart).1.symm

theorem parseCron_eq_ok {text : Str} {token : CronFieldName → Str}
    (hfields : HasFields text token) (hat : (strip text).head? ≠ some '@') {e : CronExpression} :
    parseCron text = .ok e ↔
      (∀ field, parseField field (token field) = .ok (e.field field)) ∧ e.raw = strip text := by
  have hsplit : splitFields (strip text) =
      [token .minute, token .hour, token .dayOfMonth, token .month, token .dayOfWeek] :=
    (splitFields_strip text).trans hfields
  have hexpand : expandPreset (strip text) = .ok (strip text) := if_neg hat
  unfold parseCron
  rw [hexpand, ok_bind, hsplit]
  simp only [bind_eq_ok, pure_eq_ok]
  constructor
  · intro ⟨minute, hminute, hour, hhour, dom, hdom, month, hmonth, dow, hdow, he⟩
    rw [← he]
    refine ⟨fun field => ?_, rfl⟩
    cases field with
    | minute => exact hminute
    | hour => exact hhour
    | dayOfMonth => exact hdom
    | month => exact hmonth
    | dayOfWeek => exact hdow
  · intro ⟨h, hraw⟩
    refine ⟨_, h .minute, _, h .hour, _, h .dayOfMonth, _, h .month, _, h .dayOfWeek, ?_⟩
    cases e
    rw [← hraw]
    rfl

theorem exists_parseCron {text : Str} {token : CronFieldName → Str}
    (hfields : HasFields text token) :
    (∃ e, parseCron text = .ok e) ↔
      ∀ field, ∀ part ∈ partsOf (token field), ReadsLoosely field part := by
  by_cases hat : (strip text).head? = some '@'
  · obtain ⟨hnever, part, hpart, hnot⟩ := at_sign_reads_nowhere hfields hat
    exact ⟨fun ⟨e, he⟩ => absurd he (hnever e), fun h => absurd (h .minute part hpart) hnot⟩
  · simp only [parseCron_eq_ok hfields hat, ← exists_parseField]
    constructor
    · intro ⟨e, h, _⟩ field
      exact ⟨_, h field⟩
    · intro h
      choose result hresult using h
      refine ⟨⟨result .minute, result .hour, result .dayOfMonth, result .month,
        result .dayOfWeek, strip text⟩, fun field => ?_, rfl⟩
      cases field <;> exact hresult _

theorem mem_parseCron {text : Str} {token : CronFieldName → Str}
    (hfields : HasFields text token) {e : CronExpression} (h : parseCron text = .ok e)
    (field : CronFieldName) {v : Nat} : v ∈ (e.field field).values ↔
      ∃ part ∈ partsOf (token field), ∃ set,
        Denotes field [] false (resolveNames field.names part) set ∧ v ∈ set := by
  by_cases hat : (strip text).head? = some '@'
  · exact absurd h ((at_sign_reads_nowhere hfields hat).1 e)
  · exact mem_parseField (((parseCron_eq_ok hfields hat).mp h).1 field)

def AcceptsGrammar (text : Str) (token : CronFieldName → Str) : Prop :=
  ((∃ e, parseCron text = .ok e) ↔ ∀ field, Documented field (token field)) ∧
    ∀ e, parseCron text = .ok e → ∀ field,
      (∀ v, v ∈ (e.field field).values ↔ InUnion field (token field) v) ∧
        (e.field field).values.Nonempty

theorem exists_part (token : Str) : ∃ part, part ∈ partsOf token := by
  rw [partsOf]
  cases hpieces : token.splitOn ',' with
  | nil => exact absurd hpieces (List.splitOn_ne_nil _ _)
  | cons piece pieces => exact ⟨strip piece, List.mem_cons_self⟩

theorem name_le_hi (field : CronFieldName) : ∀ entry ∈ field.names, entry.2 ≤ field.hi :=
  fun _ hentry => (readInt_name field hentry).2.2

/-- The parser keeps to the grammar exactly when some part of the expression does not read at all,
or every part has its names as whole values and its stepped ranges in order. -/
theorem cron_grammar_iff_straight (text : Str) (token : CronFieldName → Str)
    (hfields : HasFields text token) : AcceptsGrammar text token ↔
      (∃ field, ∃ part ∈ partsOf (token field), ¬ ReadsLoosely field part) ∨
        ∀ field, ∀ part ∈ partsOf (token field), Straight field part := by
  have haccept := exists_parseCron hfields
  have hloose : ∀ field, Documented field (token field) →
      ∀ part ∈ partsOf (token field), ReadsLoosely field part := by
    intro field hdocumented part hpart
    obtain ⟨set, hset⟩ := hdocumented part hpart
    exact ⟨set, hset.straight.1.loosen⟩
  constructor
  · intro ⟨hsame, _⟩
    by_cases hreads : ∀ field, ∀ part ∈ partsOf (token field), ReadsLoosely field part
    · have hdocumented := hsame.mp (haccept.mpr hreads)
      refine Or.inr fun field part hpart => ?_
      obtain ⟨set, hset⟩ := hdocumented field part hpart
      exact hset.straight.2
    · push Not at hreads
      exact Or.inl hreads
  · intro h
    obtain ⟨field, part, hpart, hnot⟩ | hstraight := h
    · have hnever : ¬ ∃ e, parseCron text = .ok e := fun he =>
        hnot (haccept.mp he field part hpart)
      refine ⟨⟨fun he => absurd he hnever, fun hdocumented => ?_⟩, fun e he => ?_⟩
      · exact absurd (hloose field (hdocumented field) part hpart) hnot
      · exact absurd ⟨e, he⟩ hnever
    · have hdocumented : (∃ e, parseCron text = .ok e) →
          ∀ field, Documented field (token field) := by
        intro he field part hpart
        obtain ⟨set, hset⟩ := haccept.mp he field part hpart
        exact ⟨set, denotes_of_straight (hstraight field part hpart) hset⟩
      refine ⟨⟨hdocumented, fun h => haccept.mpr fun field => hloose field (h field)⟩,
        fun e he field => ?_⟩
      have hmem := fun v => @mem_parseCron text token hfields e he field v
      constructor
      · intro v
        rw [hmem v]
        constructor
        · intro ⟨part, hpart, set, hset, hv⟩
          exact ⟨part, hpart, set, denotes_of_straight (hstraight field part hpart) hset, hv⟩
        · intro ⟨part, hpart, set, hset, hv⟩
          exact ⟨part, hpart, set, hset.straight.1.loosen, hv⟩
      · obtain ⟨part, hpart⟩ := exists_part (token field)
        obtain ⟨set, hset⟩ := hdocumented ⟨e, he⟩ field part hpart
        obtain ⟨v, hv⟩ := hset.nonempty (name_le_hi field)
        exact ⟨v, (hmem v).mpr ⟨part, hpart, set, hset.straight.1.loosen, hv⟩⟩

theorem not_runsBackward_of_slash {field : CronFieldName} {part : Str} (h : '/' ∉ part) :
    ¬ RunsBackward field part := by
  rintro ⟨a, b, t, x, y, hpart, -⟩
  rw [hpart] at h
  exact h (List.mem_append_right _ List.mem_cons_self)

def januaryToken : CronFieldName → Str
  | .minute => "30".toList
  | .hour => "8".toList
  | .dayOfMonth => "1".toList
  | .month => "jan".toList
  | .dayOfWeek => "mon-fri".toList

theorem cron_grammar_january :
    AcceptsGrammar "30 8 1 jan mon-fri".toList januaryToken := by
  have hsubstituted : ∀ field, ∀ part ∈ partsOf (januaryToken field),
      resolveNames field.names part = substituteValues field.names part ∧
        '/' ∉ resolveNames field.names part := by
    intro field
    cases field <;> decide +kernel
  apply (cron_grammar_iff_straight "30 8 1 jan mon-fri".toList januaryToken
    (by decide +kernel)).mpr
  refine Or.inr fun field part hpart => ?_
  obtain ⟨hsame, hslash⟩ := hsubstituted field part hpart
  exact ⟨hsame, not_runsBackward_of_slash hslash⟩

def backwardToken : CronFieldName → Str
  | .minute => "30-10/5".toList
  | _ => ['*']

/-- `30-10/5 * * * *`: a stepped range that runs backwards is accepted and matches no minute. -/
theorem backward_step_is_accepted_empty :
    HasFields "30-10/5 * * * *".toList backwardToken ∧
      ¬ AcceptsGrammar "30-10/5 * * * *".toList backwardToken := by
  have hempty : (parseCron "30-10/5 * * * *".toList).toOption.map (fun e => e.minute.values) =
      some ∅ := by decide +kernel
  refine ⟨by decide +kernel, fun h => ?_⟩
  obtain ⟨e, he, hvalues⟩ := Option.map_eq_some_iff.mp hempty
  obtain ⟨v, hv⟩ := (h.2 e (toOption_eq_some.mp he) .minute).2
  have hminute : (e.field .minute).values = ∅ := hvalues
  rw [hminute] at hv
  exact absurd hv (Finset.notMem_empty v)

/-- A name inside a longer word is read as a part of a number. -/
example : (parseCron "0 0 1 janfeb *".toList).toOption.map (fun e => e.month.values) =
    some {12} := by
  decide +kernel

end OpenStarry.Cron
