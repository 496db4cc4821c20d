import OpenStarry.RequestProof.Tiers

/-!
# The size of a request

A request is measured in characters and in tokens. Media are taken out of the measured text and pay
a reserve instead.
-/

namespace OpenStarry.RequestProof

open Lib Lib.Text Lib.Json

/-- Where a request keeps its conversation, and whether its passes may change it. -/
structure ProviderRequestEnvelopeShape where
  conversationKey : String
  allowRequestCompaction : Bool
  deriving DecidableEq, Repr

def chatRequestEnvelope : ProviderRequestEnvelopeShape := ⟨"messages", true⟩
def responsesRequestEnvelope : ProviderRequestEnvelopeShape := ⟨"input", false⟩

/-! ### Media -/

inductive MediaKind where
  | image
  | pdf
  deriving DecidableEq, Repr

structure MediaBudgetEstimate where
  excludedChars : Nat
  excludedBlocks : Nat
  reservedBlocks : Nat
  imageBlocks : Nat
  pdfBlocks : Nat
  remoteBlocks : Nat
  decodedBytes : Nat
  reserveTokens : Nat
  deriving DecidableEq, Repr

namespace MediaBudgetEstimate

def none : MediaBudgetEstimate := ⟨0, 0, 0, 0, 0, 0, 0, 0⟩

def add (a b : MediaBudgetEstimate) : MediaBudgetEstimate where
  excludedChars := a.excludedChars + b.excludedChars
  excludedBlocks := a.excludedBlocks + b.excludedBlocks
  reservedBlocks := a.reservedBlocks + b.reservedBlocks
  imageBlocks := a.imageBlocks + b.imageBlocks
  pdfBlocks := a.pdfBlocks + b.pdfBlocks
  remoteBlocks := a.remoteBlocks + b.remoteBlocks
  decodedBytes := a.decodedBytes + b.decodedBytes
  reserveTokens := a.reserveTokens + b.reserveTokens

def sum (media : List MediaBudgetEstimate) : MediaBudgetEstimate := media.foldl add none

def reserveChars (media : MediaBudgetEstimate) : Nat := media.reserveTokens * 4

end MediaBudgetEstimate

def isDataUrl (value : Str) : Bool :=
  "data:".toList.isPrefixOf value && (find ";base64,".toList (value.take 128)).isSome

def mediaPlaceholder (kind : String) (value : Str) : Str :=
  "[provider_request_".toList ++ (kind.toList ++ ("_omitted: ".toList ++
    (decimal value.length ++ " chars]".toList)))

def estimatedBase64DecodedBytes (value : Str) : Nat :=
  let encodedStart := if isDataUrl value then ((find [','] value).map (· + 1)).getD 0 else 0
  let encodedChars := value.length - encodedStart
  let padding :=
    if encodedChars ≠ 0 ∧ ['='] <:+ value then (if ['=', '='] <:+ value then 2 else 1) else 0
  encodedChars * 3 / 4 - padding

def mediaReserveTokens (kind : MediaKind) (decodedBytes : Nat) : Nat :=
  let floor := match kind with
    | .pdf => 4096
    | .image => 1024
  let bytesPerToken := match kind with
    | .pdf => 128
    | .image => 512
  floor + (if 0 < decodedBytes then (decodedBytes + bytesPerToken - 1) / bytesPerToken else 0)

def encodedMedia (kind : MediaKind) (value : Str) : MediaBudgetEstimate where
  excludedChars := value.length
  excludedBlocks := 1
  reservedBlocks := 1
  imageBlocks := if kind = .image then 1 else 0
  pdfBlocks := if kind = .pdf then 1 else 0
  remoteBlocks := 0
  decodedBytes := estimatedBase64DecodedBytes value
  reserveTokens := mediaReserveTokens kind (estimatedBase64DecodedBytes value)

def remoteMedia : MediaBudgetEstimate where
  excludedChars := 0
  excludedBlocks := 0
  reservedBlocks := 1
  imageBlocks := 1
  pdfBlocks := 0
  remoteBlocks := 1
  decodedBytes := 0
  reserveTokens := mediaReserveTokens .image 0

/-- The image that stands under `image_url`. -/
def projectImageUrl : Json → Option (Json × MediaBudgetEstimate)
  | .obj imageUrl =>
      match Dict.get imageUrl "url" with
      | .str url =>
          if isDataUrl url then
            some (.obj (Dict.set imageUrl "url" (.str (mediaPlaceholder "image_url" url))),
              encodedMedia .image url)
          else some (.obj imageUrl, remoteMedia)
      | _ => none
  | .str url =>
      if isDataUrl url then some (.str (mediaPlaceholder "image_url" url), encodedMedia .image url)
      else some (.str url, remoteMedia)
  | _ => none

/-- The image or document that stands under `source`. -/
def projectSource (ofImage : Bool) : Json → Option (Json × MediaBudgetEstimate)
  | .obj source =>
      if ofImage && hasType "url" source && (Dict.get source "url").str?.isSome then
        some (.obj source, remoteMedia)
      else if hasType "base64" source then
        match Dict.get source "data", Dict.get source "media_type" with
        | .str data, .str mediaType =>
            let kind := if mediaType = "application/pdf".toList then MediaKind.pdf else .image
            if kind = .pdf ∨ "image/".toList <+: mediaType then
              some (.obj (Dict.set source "data" (.str (mediaPlaceholder "base64_media" data))),
                encodedMedia kind data)
            else none
        | _, _ => none
      else none
  | _ => none

def projectBlock (block : Dict) : Dict × MediaBudgetEstimate :=
  let image :=
    if hasType "image_url" block || hasType "input_image" block then
      projectImageUrl (block.get "image_url")
    else none
  match image with
  | some (value, media) => (block.update "image_url" (fun _ => value), media)
  | none =>
      match projectSource (hasType "image" block) (block.get "source") with
      | some (value, media) => (block.update "source" (fun _ => value), media)
      | none => (block, .none)

def projectObj (f : Dict → Dict × MediaBudgetEstimate) : Json → Json × MediaBudgetEstimate
  | .obj d => (.obj (f d).1, (f d).2)
  | value => (value, .none)

def projectItems (f : Json → Json × MediaBudgetEstimate) : Json → Json × MediaBudgetEstimate
  | .arr items => (.arr (items.map fun item => (f item).1), .sum (items.map fun item => (f item).2))
  | value => (value, .none)

def projectBareImage : Json → Json × MediaBudgetEstimate
  | .str image => (.str (mediaPlaceholder "base64_image" image), encodedMedia .image image)
  | value => (value, .none)

/-- One item of the sequence under `key`. -/
def projectMessage (key conversationKey : Str) (message : Dict) : Dict × MediaBudgetEstimate :=
  let images :=
    if key = "messages".toList then projectItems projectBareImage (message.get "images")
    else (message.get "images", .none)
  let content :=
    if key = conversationKey then projectItems (projectObj projectBlock) (message.get "content")
    else (message.get "content", .none)
  ((message.update "images" (fun _ => images.1)).update "content" (fun _ => content.1),
    images.2.add content.2)

def budgetProjection (envelope : ProviderRequestEnvelopeShape) (payload : Dict) :
    Dict × MediaBudgetEstimate :=
  let fields := payload.map fun p =>
    (p.1, projectItems (projectObj (projectMessage p.1 envelope.conversationKey.toList)) p.2)
  (fields.map fun p => (p.1, p.2.1), .sum (fields.map fun p => p.2.2))

/-! ### The budget -/

/-- The budget that is enforced, and the headroom below the one that is given. A tenth is cut off.
The cap lies far below what a float could round. -/
def effectiveProofBudget (proofBudget : Int) : Int × Int :=
  if proofBudget ≤ 0 then (proofBudget, 0)
  else
    let capped := min 16384 (max 512 (proofBudget / 10))
    let headroom := if proofBudget ≤ capped then max 0 (proofBudget / 4) else capped
    (max 1 (proofBudget - headroom), headroom)

/-- What is known about the size of a request, and how it came to be. -/
structure BudgetProof where
  estimatedChars : Nat
  estimatedTextTokens : Nat
  estimatedTokens : Nat
  tokenEstimateSource : Str
  proofBudget : Int
  effectiveProofBudget : Int
  rawProofTokenBudget : Int
  effectiveProofTokenBudget : Int
  proofHeadroomChars : Int
  fitsCharBudget : Bool
  fitsTokenBudget : Bool
  fits : Bool
  compactNeeded : Bool
  media : MediaBudgetEstimate
  compactionTier : Nat
  retryCount : Nat
  compactionNotSmaller : Bool
  toolArgumentProjectionScrubbed : Bool
  aggregateToolArgumentsCompacted : Bool
  deriving DecidableEq, Repr

inductive RequestError where
  /-- The request holds a number that is not finite. -/
  | notJson
  | budgetExceeded (proof : BudgetProof)
  deriving DecidableEq, Repr

/-- What a caller asks for besides the payload. -/
structure Request where
  proofBudget : Int
  envelope : ProviderRequestEnvelopeShape
  activeUserMessageIndex : Option Int
  protectedToolResultIndexes : List Int
  deriving DecidableEq, Repr

section

variable (runtime : Runtime) (request : Request)

def projectProviderPayload (payload : Dict) : Except RequestError BudgetProof :=
  if isFinite (.obj payload) = false then .error .notJson
  else
    let projection := budgetProjection request.envelope payload
    let media := projection.2
    let projectedText := dumps (.obj projection.1)
    let estimatedText := runtime.estimateTokens projectedText
    let estimatedChars := projectedText.length + media.reserveChars
    let estimatedTokens := estimatedText.1 + media.reserveTokens
    let effective := effectiveProofBudget request.proofBudget
    let tokenBudget (budget : Int) : Int := if 0 < request.proofBudget then max 1 (budget / 4) else budget
    let fitsCharBudget := decide (request.proofBudget ≤ 0 ∨ (estimatedChars : Int) ≤ effective.1)
    let fitsTokenBudget :=
      decide (request.proofBudget ≤ 0 ∨ (estimatedTokens : Int) ≤ tokenBudget effective.1)
    .ok
      { estimatedChars := estimatedChars
        estimatedTextTokens := estimatedText.1
        estimatedTokens := estimatedTokens
        tokenEstimateSource := estimatedText.2
        proofBudget := request.proofBudget
        effectiveProofBudget := effective.1
        rawProofTokenBudget := tokenBudget request.proofBudget
        effectiveProofTokenBudget := tokenBudget effective.1
        proofHeadroomChars := effective.2
        fitsCharBudget := fitsCharBudget
        fitsTokenBudget := fitsTokenBudget
        fits := fitsCharBudget && fitsTokenBudget
        compactNeeded := !(fitsCharBudget && fitsTokenBudget)
        media := media
        compactionTier := 0
        retryCount := 0
        compactionNotSmaller := false
        toolArgumentProjectionScrubbed := false
        aggregateToolArgumentsCompacted := false }

/-- `prove_provider_payload`. -/
def proveProviderPayload (payload : Dict) : Except RequestError BudgetProof :=
  match projectProviderPayload runtime request payload with
  | .ok proof => if proof.fits then .ok proof else .error (.budgetExceeded proof)
  | .error e => .error e

/-- `project_provider_payload` reports that the payload fits. -/
def Fits (payload : Dict) : Prop :=
  ∃ proof, projectProviderPayload runtime request payload = .ok proof ∧ proof.fits = true

end

end OpenStarry.RequestProof
