import OpenStarry.RequestProof.Prove

/-!
# The passes keep a request serializable

A pass writes texts, truth values and counts. A request without an infinite number stays without one.
-/

namespace OpenStarry.RequestProof

open Lib Lib.Text Lib.Json

/-! ### Changes in place -/

def KeepsFinite (f : Json → Json) : Prop := ∀ value, isFinite value = true → isFinite (f value) = true

def KeepsFiniteFields (f : Dict → Dict) : Prop :=
  ∀ d, fieldsFinite d = true → fieldsFinite (f d) = true

def KeepsFiniteItems (f : List Json → List Json) : Prop :=
  ∀ xs, itemsFinite xs = true → itemsFinite (f xs) = true

theorem isFinite_of_mem {xs : List Json} (h : itemsFinite xs = true) : ∀ x ∈ xs, isFinite x = true := by
  induction xs with
  | nil => simp
  | cons x xs ih =>
      rw [itemsFinite, Bool.and_eq_true] at h
      intro y hy
      obtain rfl | hy := List.mem_cons.mp hy
      · exact h.1
      · exact ih h.2 y hy

theorem isFinite_get {d : Dict} (h : fieldsFinite d = true) (key : String) :
    isFinite (d.get key) = true := by
  induction d with
  | nil => rfl
  | cons p rest ih =>
      obtain ⟨k, v⟩ := p
      rw [fieldsFinite, Bool.and_eq_true] at h
      rw [Dict.get, List.lookup_cons]
      cases key.toList == k with
      | true => exact h.1
      | false => exact ih h.2

theorem fieldsFinite_append {a b : Dict} :
    fieldsFinite (a ++ b) = true ↔ fieldsFinite a = true ∧ fieldsFinite b = true := by
  induction a with
  | nil => simp [fieldsFinite]
  | cons p rest ih =>
      obtain ⟨k, v⟩ := p
      rw [List.cons_append, fieldsFinite, fieldsFinite, Bool.and_eq_true, Bool.and_eq_true, ih,
        and_assoc]

theorem KeepsFinite.update {f : Json → Json} (hf : KeepsFinite f) (key : String) :
    KeepsFiniteFields (Dict.update key f) := by
  intro d h
  induction d with
  | nil => rfl
  | cons p rest ih =>
      obtain ⟨k, v⟩ := p
      rw [fieldsFinite, Bool.and_eq_true] at h
      rw [Dict.update]
      split_ifs
      · rw [fieldsFinite, Bool.and_eq_true]
        exact ⟨hf v h.1, h.2⟩
      · rw [fieldsFinite, Bool.and_eq_true]
        exact ⟨h.1, ih h.2⟩

theorem fieldsFinite_set {d : Dict} (h : fieldsFinite d = true) (key : String) {value : Json}
    (hvalue : isFinite value = true) : fieldsFinite (d.set key value) = true := by
  rw [Dict.set]
  split_ifs
  · exact KeepsFinite.update (f := fun _ => value) (fun _ _ => hvalue) key d h
  · rw [fieldsFinite_append]
    refine ⟨h, ?_⟩
    rw [fieldsFinite, hvalue]
    rfl

theorem keepsFinite_mapStr (f : Str → Str) : KeepsFinite (mapStr f) := by
  intro value h
  cases value <;> first | exact h | rfl

theorem KeepsFiniteFields.mapObj {f : Dict → Dict} (hf : KeepsFiniteFields f) :
    KeepsFinite (mapObj f) := by
  intro value h
  cases value with
  | obj d => exact hf d h
  | null => exact h
  | bool b => exact h
  | num n => exact h
  | str s => exact h
  | arr xs => exact h

theorem KeepsFiniteItems.mapArr {f : List Json → List Json} (hf : KeepsFiniteItems f) :
    KeepsFinite (mapArr f) := by
  intro value h
  cases value with
  | arr xs => exact hf xs h
  | null => exact h
  | bool b => exact h
  | num n => exact h
  | str s => exact h
  | obj d => exact h

theorem KeepsFinite.map {f : Json → Json} (hf : KeepsFinite f) : KeepsFiniteItems (List.map f) := by
  intro xs h
  induction xs with
  | nil => rfl
  | cons x xs ih =>
      rw [itemsFinite, Bool.and_eq_true] at h
      rw [List.map_cons, itemsFinite, Bool.and_eq_true]
      exact ⟨hf x h.1, ih h.2⟩

theorem KeepsFinite.mapItems {f : Json → Json} (hf : KeepsFinite f) : KeepsFinite (mapItems f) :=
  hf.map.mapArr

theorem KeepsFiniteFields.comp {f g : Dict → Dict} (hf : KeepsFiniteFields f)
    (hg : KeepsFiniteFields g) : KeepsFiniteFields fun d => f (g d) := fun d h => hf _ (hg d h)

theorem keepsFiniteFields_id : KeepsFiniteFields fun d => d := fun _ h => h

theorem KeepsFiniteFields.ite {f g : Dict → Dict} {p : Dict → Prop} [∀ d, Decidable (p d)]
    (hf : KeepsFiniteFields f) (hg : KeepsFiniteFields g) :
    KeepsFiniteFields fun d => if p d then f d else g d := by
  intro d h
  dsimp only
  split_ifs
  · exact hf d h
  · exact hg d h

theorem keepsFiniteFields_mapArguments (f : Dict → Str → Str) : KeepsFiniteFields (mapArguments f) := by
  apply KeepsFinite.update
  apply KeepsFinite.mapItems
  apply KeepsFiniteFields.mapObj
  intro call hcall
  apply KeepsFinite.update _ _ call hcall
  apply KeepsFiniteFields.mapObj
  apply KeepsFinite.update
  exact keepsFinite_mapStr _

theorem keepsFinite_mapResultContent (f g : Str → Str) : KeepsFinite (mapResultContent f g) := by
  have hitems : KeepsFinite (Json.mapItems (Json.mapObj (Dict.update "text" (mapStr g)))) :=
    ((keepsFinite_mapStr g).update "text").mapObj.mapItems
  intro value h
  cases value with
  | str s => rfl
  | null => exact h
  | bool b => exact h
  | num n => exact h
  | arr xs => exact hitems (.arr xs) h
  | obj d => exact h

theorem keepsFiniteItems_mapBlocks {f : Bool → Dict → Dict} (hf : ∀ flag, KeepsFiniteFields (f flag))
    (flags : List Bool) : KeepsFiniteItems (mapBlocks f flags) := by
  intro blocks h
  induction blocks generalizing flags with
  | nil => rfl
  | cons block rest ih =>
      rw [itemsFinite, Bool.and_eq_true] at h
      rw [mapBlocks]
      split_ifs
      · rw [itemsFinite, Bool.and_eq_true]
        exact ⟨(hf _).mapObj block h.1, ih _ h.2⟩
      · rw [itemsFinite, Bool.and_eq_true]
        exact ⟨(hf _).mapObj block h.1, ih _ h.2⟩

theorem keepsFiniteItems_mapMessagesFrom {f : Nat → List Bool → Dict → Dict}
    (hf : ∀ index flags, KeepsFiniteFields (f index flags)) (index : Nat) (flags : List Bool) :
    KeepsFiniteItems (mapMessagesFrom f index flags) := by
  intro messages h
  induction messages generalizing index flags with
  | nil => rfl
  | cons message rest ih =>
      rw [itemsFinite, Bool.and_eq_true] at h
      rw [mapMessagesFrom, itemsFinite, Bool.and_eq_true]
      exact ⟨(hf _ _).mapObj message h.1, ih _ _ h.2⟩

/-! ### Inputs -/

theorem isFinite_ofNat (n : Nat) : (Number.ofNat n).isFinite = true := by
  rw [Number.isFinite, decide_eq_true_eq]
  intro hspecial
  have hletter : ∀ special ∈ specials, ∃ c ∈ special, c.isDigit = false := by decide
  obtain ⟨c, hc, hdigit⟩ := hletter _ hspecial
  rw [isDigit_of_mem_decimal hc] at hdigit
  exact absurd hdigit (by decide)

variable {runtime : Runtime} {settings : Settings}

theorem fieldsFinite_inputStub (raw : Str) (value : Dict) :
    fieldsFinite (inputStub runtime settings raw value) = true := by
  rw [inputStub]
  split_ifs <;> simp [fieldsFinite, isFinite, isFinite_ofNat]

theorem keepsFiniteFields_compactToolInput : KeepsFiniteFields (compactToolInput runtime settings) := by
  intro value h
  rw [compactToolInput]
  dsimp only
  split_ifs
  any_goals exact h
  any_goals exact fieldsFinite_inputStub _ _
  any_goals rfl
  · clear * - h
    induction value with
    | nil => rfl
    | cons p rest ih =>
        obtain ⟨k, v⟩ := p
        rw [fieldsFinite, Bool.and_eq_true] at h
        rw [List.map_cons, fieldsFinite, Bool.and_eq_true]
        exact ⟨keepsFinite_mapStr _ v h.1, ih h.2⟩

/-! ### Passes -/

theorem keepsFiniteFields_onMessages {f : List Json → List Json} (hf : KeepsFiniteItems f) :
    KeepsFiniteFields (onMessages f) := hf.mapArr.update "messages"

theorem keepsFiniteFields_scrub :
    KeepsFiniteFields fun payload => (scrubLeakedToolArgumentProjections runtime settings payload).1 := by
  have hinput : KeepsFiniteFields (scrubbedInput runtime settings) := by
    intro input h
    rw [scrubbedInput]
    split_ifs
    · exact h
    · exact keepsFiniteFields_compactToolInput input h
  have hblock : KeepsFiniteFields (scrubBlock runtime settings) :=
    (hinput.mapObj.update "input").ite keepsFiniteFields_id
  have hmessage : KeepsFiniteFields (scrubMessage runtime settings) :=
    ((hblock.mapObj.mapItems.update "content").comp (keepsFiniteFields_mapArguments _)).ite
      keepsFiniteFields_id
  intro payload h
  dsimp only [scrubLeakedToolArgumentProjections]
  split_ifs
  · exact keepsFiniteFields_onMessages hmessage.mapObj.map payload h
  · exact h

theorem keepsFiniteFields_compactToolEntry (flag : Bool) :
    KeepsFiniteFields (compactToolEntry settings flag) :=
  keepsFiniteFields_id.ite ((keepsFinite_mapResultContent _ _).update "content")

theorem keepsFiniteFields_compactToolPayload (protectedIndexes : List Int) :
    KeepsFiniteFields (compactToolPayload runtime settings protectedIndexes) := by
  apply keepsFiniteFields_onMessages
  intro messages h
  apply keepsFiniteItems_mapMessagesFrom _ _ _ _ h
  intro index flags
  apply KeepsFiniteFields.ite (keepsFiniteFields_compactToolEntry _)
  apply KeepsFinite.update
  apply KeepsFiniteItems.mapArr
  apply keepsFiniteItems_mapBlocks
  intro flag
  exact (keepsFiniteFields_compactToolEntry flag).ite keepsFiniteFields_id

theorem keepsFiniteFields_compactRecentTailBlock (ofAssistant : Bool) :
    KeepsFiniteFields (compactRecentTailBlock runtime settings ofAssistant) := by
  intro block h
  rw [compactRecentTailBlock]
  split_ifs
  · exact fieldsFinite_set h _ (keepsFiniteFields_compactToolInput.mapObj _ (isFinite_get h _))
  · exact (keepsFinite_mapStr _).update _ block h
  · exact (keepsFinite_mapStr _).update _ block h
  · exact h

theorem keepsFiniteFields_compactRecentTailMessage (aggregate : Bool) :
    KeepsFiniteFields (compactRecentTailMessage runtime settings aggregate) := by
  intro message h
  rw [compactRecentTailMessage]
  apply (keepsFiniteFields_compactRecentTailBlock _).mapObj.mapItems.update
  split_ifs
  · exact keepsFiniteFields_mapArguments _ _ ((keepsFinite_mapStr _).update _ message h)
  · exact h

theorem keepsFiniteFields_compactRecentTailPayload (protectedIndexes : List Int) :
    KeepsFiniteFields fun payload =>
      (compactRecentTailPayload runtime settings protectedIndexes payload).1 := by
  intro payload h
  apply keepsFiniteFields_compactToolPayload
  apply keepsFiniteFields_onMessages _ payload h
  intro messages hmessages
  have hall := isFinite_of_mem hmessages
  have hfinite {xs : List Json} (hxs : ∀ x ∈ xs, isFinite x = true) : itemsFinite xs = true := by
    induction xs with
    | nil => rfl
    | cons x xs ih =>
        rw [itemsFinite, Bool.and_eq_true]
        exact ⟨hxs x (by simp), ih fun y hy => hxs y (by simp [hy])⟩
  apply hfinite
  intro message hmessage
  obtain ⟨index, hindex, rfl⟩ := List.mem_mapIdx.mp hmessage
  split_ifs
  · exact hall _ (List.getElem_mem hindex)
  · exact (keepsFiniteFields_compactRecentTailMessage _).mapObj _ (hall _ (List.getElem_mem hindex))

theorem keepsFinite_compactUserContent :
    KeepsFinite (compactUserContentForProvider runtime settings) := by
  intro content h
  have hblocks : KeepsFiniteFields fun block =>
      if hasType "text" block then
        Dict.update "text" (mapStr (emergencyCompactString settings runtime "user_text".toList)) block
      else block :=
    ((keepsFinite_mapStr _).update "text").ite keepsFiniteFields_id
  cases content with
  | str s => rfl
  | null => exact h
  | bool b => exact h
  | num n => exact h
  | arr xs => exact hblocks.mapObj.mapItems (.arr xs) h
  | obj d => exact h

theorem keepsFiniteFields_emergencyCompactMessage (protectedIndex activeIndex : Option Nat)
    (index : Nat) (flags : List Bool) : KeepsFiniteFields
      (emergencyCompactMessage runtime settings protectedIndex activeIndex index flags) := by
  intro message h
  rw [emergencyCompactMessage]
  dsimp only
  split_ifs
  · exact h
  have huser : fieldsFinite (emergencyCompactUser runtime settings
      (decide (some index = activeIndex)) (flags.any id) message) = true := by
    rw [emergencyCompactUser]
    split_ifs
    · exact fieldsFinite_set h _ (keepsFinite_compactUserContent _ (isFinite_get h _))
    · exact h
  have htext : KeepsFiniteFields (emergencyCompactText runtime settings (flags.any id)) := by
    intro d hd
    rw [emergencyCompactText]
    split_ifs
    · exact (keepsFinite_mapStr _).update _ d hd
    · exact (keepsFinite_mapStr _).update _ d hd
    · exact hd
  have hcalls : KeepsFiniteFields (emergencyCompactCalls runtime settings) := by
    intro d hd
    rw [emergencyCompactCalls]
    split_ifs
    · exact keepsFiniteFields_mapArguments _ _ ((keepsFinite_mapStr _).update _ d hd)
    · exact hd
  apply (keepsFiniteItems_mapBlocks _ flags).mapArr.update _ _ (hcalls _ (htext _ huser))
  intro flag block hblock
  rw [emergencyCompactBlock]
  split_ifs
  · exact hblock
  · exact (keepsFinite_mapResultContent _ _).update _ block hblock
  · exact (keepsFinite_mapStr _).update _ block hblock
  · exact (keepsFinite_mapStr _).update _ block hblock
  · exact hblock

theorem keepsFinite_hardCompactContent (label : Str) :
    KeepsFinite (hardCompactContentForProvider runtime settings label) := by
  intro content h
  have hblocks : KeepsFiniteFields fun block =>
      Dict.update "thinking" (mapStr (hardCompactString settings runtime (label ++ "_thinking".toList)))
        (Dict.update "content" (mapStr (hardCompactString settings runtime (label ++ "_content".toList)))
          (Dict.update "text" (mapStr (hardCompactString settings runtime (label ++ "_text".toList)))
            block)) :=
    ((keepsFinite_mapStr _).update "thinking").comp
      (((keepsFinite_mapStr _).update "content").comp ((keepsFinite_mapStr _).update "text"))
  cases content with
  | str s => rfl
  | null => exact h
  | bool b => exact h
  | num n => exact h
  | arr xs => exact hblocks.mapObj.mapItems (.arr xs) h
  | obj d => exact h

theorem keepsFinite_hardCapToolContent : KeepsFinite (hardCapToolContent runtime settings) := by
  intro content h
  rw [hardCapToolContent]
  split_ifs
  · have hblocks : KeepsFiniteFields (Dict.update "content"
        (mapStr (emergencyCompactString settings runtime "tool_result".toList))) :=
      (keepsFinite_mapStr _).update "content"
    cases content with
    | str s => rfl
    | null => exact h
    | bool b => exact h
    | num n => exact h
    | arr xs => exact hblocks.mapObj.mapItems (.arr xs) h
    | obj d => exact h
  · exact keepsFinite_hardCompactContent _ content h

theorem keepsFiniteFields_hardCapMessage (resolved : List Str) (protectedIndex activeIndex : Option Nat)
    (index : Nat) (flags : List Bool) : KeepsFiniteFields
      (hardCapMessage runtime settings resolved protectedIndex activeIndex index flags) := by
  intro message h
  rw [hardCapMessage]
  split_ifs
  · exact h
  · exact h
  · exact h
  · exact fieldsFinite_set h _ (keepsFinite_hardCompactContent _ _ (isFinite_get h _))
  · exact fieldsFinite_set h _ (keepsFinite_hardCapToolContent _ (isFinite_get h _))
  · apply keepsFiniteFields_mapArguments
    apply (keepsFinite_mapStr _).update
    exact fieldsFinite_set h _ (keepsFinite_hardCompactContent _ _ (isFinite_get h _))
  · exact h

variable {request : Request}

theorem isFinite_tierPayload {payload : Dict} (h : isFinite (.obj payload) = true) (tier : Nat) :
    isFinite (.obj (tierPayload runtime settings request payload tier)) = true := by
  induction tier with
  | zero => exact keepsFiniteFields_scrub payload h
  | succ tier ih =>
      match tier, ih with
      | 0, ih => exact keepsFiniteFields_compactToolPayload _ _ ih
      | 1, ih => exact keepsFiniteFields_compactRecentTailPayload _ _ ih
      | 2, ih =>
          exact keepsFiniteFields_onMessages (keepsFiniteItems_mapMessagesFrom
            (keepsFiniteFields_emergencyCompactMessage _ _) _ _) _ ih
      | _ + 3, ih =>
          exact keepsFiniteFields_onMessages (keepsFiniteItems_mapMessagesFrom
            (keepsFiniteFields_hardCapMessage _ _ _) _ _) _ ih

end OpenStarry.RequestProof
