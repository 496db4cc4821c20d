import OpenStarry.Lib.Outcome
import OpenStarry.Lib.Text

/-!
# The public DNS client

One query over UDP. The length octet of a label counts the characters of the label, the bytes behind
it are those of its IDNA encoding, so the packet is read back as it was meant when the two have the
same length.
-/

namespace OpenStarry.Sandbox

open Lib

abbrev Bytes := List UInt8

inductive DnsError where
  | valueError (message : String)
  | unicodeError
  | osError
  deriving DecidableEq

inductive IpAddress where
  | v4 (data : Bytes)
  | v6 (data : Bytes)
  deriving DecidableEq

/-! ### Names in a packet -/

/-- `_skip_dns_name`: the offset behind the name at `offset`. -/
def skipDnsName (payload : Bytes) (offset : Nat) : Nat :=
  if h : offset < payload.length then
    let length := payload[offset]
    if length = 0 then offset + 1
    else if length &&& 0xC0 = 0xC0 then
      if offset + 1 < payload.length then offset + 2 else payload.length
    else if length &&& 0xC0 ≠ 0 ∨ offset + 1 + length.toNat > payload.length then payload.length
    else skipDnsName payload (offset + 1 + length.toNat)
  else payload.length
termination_by payload.length - offset

/-- The labels of the uncompressed name at `offset`. -/
def readLabels (payload : Bytes) (offset : Nat) : Option (List Bytes) :=
  if h : offset < payload.length then
    let length := payload[offset]
    if length = 0 then some []
    else if length &&& 0xC0 ≠ 0 ∨ offset + 1 + length.toNat > payload.length then none
    else
      (readLabels payload (offset + 1 + length.toNat)).map
        ((payload.drop (offset + 1)).take length.toNat :: ·)
  else none
termination_by payload.length - offset

/-! ### The query -/

/-- `struct.pack("!H", n)`. -/
def pack16 (n : Nat) : Bytes := [UInt8.ofNat (n / 256), UInt8.ofNat n]

/-- The two bytes at `offset`, in network order. -/
def unpack16 (data : Bytes) (offset : Nat) : Nat :=
  (data.getD offset 0).toNat * 256 + (data.getD (offset + 1) 0).toNat

def dnsLabels (hostname : Str) : List Str := (hostname.rdropWhile (· == '.')).splitOn '.'

section

variable (idna : Str → Except DnsError Bytes)

def encodedLabel (label : Str) : Except DnsError Bytes := do
  let encoded ← idna label
  pure (UInt8.ofNat label.length :: encoded)

def dnsQuestion (labels : List Str) (qtype : Nat) : Except DnsError Bytes := do
  let encoded ← labels.mapM (encodedLabel idna)
  pure (encoded.flatten ++ [0] ++ (pack16 qtype ++ pack16 1))

def dnsHeader (queryId : Nat) : Bytes :=
  pack16 queryId ++ pack16 0x0100 ++ pack16 1 ++ pack16 0 ++ pack16 0 ++ pack16 0

/-- The packet that is sent for a hostname, `none` when nothing is asked. -/
def dnsPacket (queryId : Nat) (hostname : Str) (qtype : Nat) : Except DnsError (Option Bytes) :=
  let labels := dnsLabels hostname
  if labels = [] ∨ ∃ label ∈ labels, label = [] ∨ label.length > 63 then pure none
  else do
    let question ← dnsQuestion idna labels qtype
    pure (some (dnsHeader queryId ++ question))

/-! ### The response -/

def skipQuestions (response : Bytes) : Nat → Nat → Option Nat
  | 0, offset => some offset
  | questions + 1, offset =>
      let behind := skipDnsName response offset
      if behind + 4 > response.length then none
      else skipQuestions response questions (behind + 4)

def readAnswers (response : Bytes) (qtype : Nat) : Nat → Nat → List IpAddress
  | 0, _ => []
  | answers + 1, offset =>
      let record := skipDnsName response offset
      if record + 10 > response.length then []
      else
        let recordType := unpack16 response record
        let recordClass := unpack16 response (record + 2)
        let dataLength := unpack16 response (record + 8)
        let data := (response.drop (record + 10)).take dataLength
        let rest := readAnswers response qtype answers (record + 10 + dataLength)
        if recordClass ≠ 1 ∨ recordType ≠ qtype then rest
        else if qtype = 1 ∧ data.length = 4 then .v4 data :: rest
        else if qtype = 28 ∧ data.length = 16 then .v6 data :: rest
        else rest

def parseResponse (response : Bytes) (queryId qtype : Nat) : List IpAddress :=
  let flags := unpack16 response 2
  if response.length < 12 then []
  else if unpack16 response 0 ≠ queryId ∨ flags &&& 0x8000 = 0 ∨ flags &&& 0x000F ≠ 0 then []
  else
    match skipQuestions response (unpack16 response 4) 12 with
    | none => []
    | some offset => readAnswers response qtype (unpack16 response 6) offset

def queryPublicDns (isIpLiteral : Str → Bool) (exchange : Str → Bytes → Except DnsError Bytes)
    (queryId : Nat) (server hostname : Str) (qtype : Nat) : Except DnsError (List IpAddress) :=
  if isIpLiteral server = false then
    .error (.valueError "public DNS server must be an IP literal")
  else do
    match ← dnsPacket idna queryId hostname qtype with
    | none => pure []
    | some packet => do
        let response ← exchange server packet
        pure (parseResponse response queryId qtype)

end

/-! ### Reading labels back -/

theorem toNat_lengthOctet {n : Nat} (h : n ≤ 63) : (UInt8.ofNat n).toNat = n := by
  rw [UInt8.toNat_ofNat']
  omega

theorem lengthOctet_no_pointer {n : Nat} (h : n ≤ 63) : UInt8.ofNat n &&& 0xC0 = 0 := by
  have hall : ∀ m < 64, UInt8.ofNat m &&& 0xC0 = 0 := by decide
  exact hall n (by omega)

theorem lengthOctet_ne_zero {n : Nat} (hpos : 0 < n) (h : n ≤ 63) : UInt8.ofNat n ≠ 0 := by
  intro hzero
  have hnat := congrArg UInt8.toNat hzero
  rw [toNat_lengthOctet h] at hnat
  exact absurd hnat (Nat.ne_of_gt hpos)

section

variable {front back : Bytes} {n : Nat}

theorem skipDnsName_zero (front back : Bytes) :
    skipDnsName (front ++ 0 :: back) front.length = front.length + 1 := by
  rw [skipDnsName, dif_pos (by simp)]
  simp

theorem readLabels_zero (front back : Bytes) :
    readLabels (front ++ 0 :: back) front.length = some [] := by
  rw [readLabels, dif_pos (by simp)]
  simp

theorem skipDnsName_label (hpos : 0 < n) (hn : n ≤ 63) (hfits : n ≤ back.length) :
    skipDnsName (front ++ UInt8.ofNat n :: back) front.length =
      skipDnsName (front ++ UInt8.ofNat n :: back) (front.length + 1 + n) := by
  rw [skipDnsName, dif_pos (by simp)]
  have hlength : ¬ front.length + 1 + n > (front ++ UInt8.ofNat n :: back).length := by
    rw [List.length_append, List.length_cons]
    omega
  simp only [List.getElem_append_right (Nat.le_refl _), Nat.sub_self, List.getElem_cons_zero,
    if_neg (lengthOctet_ne_zero hpos hn), lengthOctet_no_pointer hn, toNat_lengthOctet hn]
  rw [if_neg (by decide), if_neg (by simpa using hlength)]

theorem readLabels_label (hpos : 0 < n) (hn : n ≤ 63) (hfits : n ≤ back.length) :
    readLabels (front ++ UInt8.ofNat n :: back) front.length =
      (readLabels (front ++ UInt8.ofNat n :: back) (front.length + 1 + n)).map
        (back.take n :: ·) := by
  rw [readLabels, dif_pos (by simp)]
  have hlength : ¬ front.length + 1 + n > (front ++ UInt8.ofNat n :: back).length := by
    rw [List.length_append, List.length_cons]
    omega
  have hdrop : (front ++ UInt8.ofNat n :: back).drop (front.length + 1) = back := by
    rw [← List.drop_drop, List.drop_left, List.drop_one, List.tail_cons]
  simp only [List.getElem_append_right (Nat.le_refl _), Nat.sub_self, List.getElem_cons_zero,
    if_neg (lengthOctet_ne_zero hpos hn), lengthOctet_no_pointer hn, toNat_lengthOctet hn]
  rw [if_neg (by simpa using hlength), hdrop]

theorem readLabels_short (hpos : 0 < n) (hn : n ≤ 63) (hshort : back.length < n) :
    readLabels (front ++ UInt8.ofNat n :: back) front.length = none := by
  rw [readLabels, dif_pos (by simp)]
  have hlength : front.length + 1 + n > (front ++ UInt8.ofNat n :: back).length := by
    rw [List.length_append, List.length_cons]
    omega
  simp only [List.getElem_append_right (Nat.le_refl _), Nat.sub_self, List.getElem_cons_zero,
    if_neg (lengthOctet_ne_zero hpos hn), toNat_lengthOctet hn]
  rw [if_pos (.inr hlength)]

end

/-! ### A whole name -/

def wireLabel (label : Str) (encoded : Bytes) : Bytes := UInt8.ofNat label.length :: encoded

def IsDnsLabel (label : Str) : Prop := label ≠ [] ∧ label.length ≤ 63

section

variable {idna : Str → Except DnsError Bytes} {labels : List Str} {encodings : List Bytes}

theorem mapM_encodedLabel (h : labels.mapM idna = .ok encodings) :
    labels.mapM (encodedLabel idna) = .ok (List.zipWith wireLabel labels encodings) := by
  induction labels generalizing encodings with
  | nil =>
      rw [List.mapM_nil, pure_eq_ok] at h
      rw [← h]
      rfl
  | cons label rest ih =>
      rw [List.mapM_cons, bind_eq_ok] at h
      obtain ⟨encoded, hencoded, hrest⟩ := h
      obtain ⟨others, hothers, hcons⟩ := bind_eq_ok.mp hrest
      rw [pure_eq_ok] at hcons
      subst hcons
      rw [List.mapM_cons, encodedLabel, hencoded, ok_bind, pure_bind, ih hothers, ok_bind,
        List.zipWith_cons_cons]
      rfl

theorem readLabels_wire_iff (hlabels : ∀ label ∈ labels, IsDnsLabel label)
    (hlength : encodings.length = labels.length) (front tail : Bytes) :
    readLabels (front ++ ((List.zipWith wireLabel labels encodings).flatten ++ 0 :: tail))
        front.length = some encodings ↔
      List.Forall₂ (fun label encoded => encoded.length = label.length) labels encodings := by
  induction labels generalizing encodings front with
  | nil =>
      obtain rfl : encodings = [] := List.length_eq_zero_iff.mp hlength
      simp [readLabels_zero]
  | cons label rest ih =>
      cases encodings with
      | nil => simp at hlength
      | cons encoded others =>
          obtain ⟨hne, hmost⟩ := hlabels label List.mem_cons_self
          have hpos := List.length_pos_iff.mpr hne
          have hrest := ih (fun l hl => hlabels l (List.mem_cons_of_mem label hl))
            (Nat.succ.inj hlength)
          let behind := (List.zipWith wireLabel rest others).flatten ++ 0 :: tail
          have hpacket : front ++ ((List.zipWith wireLabel (label :: rest) (encoded :: others)).flatten ++
              0 :: tail) = front ++ UInt8.ofNat label.length :: (encoded ++ behind) := by
            simp [wireLabel, behind]
          have hnext : front ++ UInt8.ofNat label.length :: (encoded ++ behind) =
              (front ++ UInt8.ofNat label.length :: encoded) ++ behind := by
            simp
          rw [hpacket, List.forall₂_cons]
          constructor
          · intro hread
            by_cases hfits : label.length ≤ (encoded ++ behind).length
            · rw [readLabels_label hpos hmost hfits] at hread
              obtain ⟨labels', hlabels', hcons⟩ := Option.map_eq_some_iff.mp hread
              obtain ⟨hfirst, hothers⟩ := List.cons.inj hcons
              have hsame : encoded.length = label.length := by
                rw [← hfirst, List.length_take]
                exact Nat.min_eq_left hfits
              refine ⟨hsame, (hrest (front ++ UInt8.ofNat label.length :: encoded)).mp ?_⟩
              rw [List.length_append, List.length_cons, hsame, ← hnext]
              rw [← hothers, ← hlabels', Nat.add_assoc, Nat.add_comm 1]
            · rw [readLabels_short hpos hmost (Nat.lt_of_not_le hfits)] at hread
              cases hread
          · rintro ⟨hsame, hothers⟩
            have hfits : label.length ≤ (encoded ++ behind).length := by
              rw [List.length_append]
              omega
            have hread := (hrest (front ++ UInt8.ofNat label.length :: encoded)).mpr hothers
            rw [List.length_append, List.length_cons, hsame, ← hnext, Nat.add_comm label.length,
              ← Nat.add_assoc] at hread
            rw [readLabels_label hpos hmost hfits, hread, Option.map_some, ← hsame, List.take_left]

theorem skipDnsName_wire (hlabels : ∀ label ∈ labels, IsDnsLabel label)
    (hlengths : List.Forall₂ (fun label encoded => encoded.length = label.length) labels encodings)
    (front tail : Bytes) :
    skipDnsName (front ++ ((List.zipWith wireLabel labels encodings).flatten ++ 0 :: tail))
        front.length =
      (front ++ ((List.zipWith wireLabel labels encodings).flatten ++ 0 :: tail)).length -
        tail.length := by
  induction hlengths generalizing front with
  | nil =>
      rw [List.zipWith_nil_left, List.flatten_nil, List.nil_append, skipDnsName_zero,
        List.length_append, List.length_cons]
      omega
  | @cons label encoded rest others hsame _ ih =>
      obtain ⟨hne, hmost⟩ := hlabels label List.mem_cons_self
      have hpos := List.length_pos_iff.mpr hne
      let behind := (List.zipWith wireLabel rest others).flatten ++ 0 :: tail
      have hpacket : front ++ ((List.zipWith wireLabel (label :: rest) (encoded :: others)).flatten ++
          0 :: tail) = front ++ UInt8.ofNat label.length :: (encoded ++ behind) := by
        simp [wireLabel, behind]
      have hnext : front ++ UInt8.ofNat label.length :: (encoded ++ behind) =
          (front ++ UInt8.ofNat label.length :: encoded) ++ behind := by
        simp
      have hfits : label.length ≤ (encoded ++ behind).length := by
        rw [List.length_append]
        omega
      have hskip := ih (fun l hl => hlabels l (List.mem_cons_of_mem label hl))
        (front ++ UInt8.ofNat label.length :: encoded)
      rw [List.length_append, List.length_cons, hsame, ← hnext, Nat.add_comm label.length,
        ← Nat.add_assoc] at hskip
      rw [hpacket, skipDnsName_label hpos hmost hfits, hskip]

end

/-! ### The packet of a hostname -/

def Accepts (idna : Str → Except DnsError Bytes) (label : Str) : Prop :=
  ∃ encoded, idna label = .ok encoded ∧ 0 < encoded.length ∧ encoded.length ≤ 63 ∧
    ∀ byte ∈ encoded, byte < 128

def ReadsBack (idna : Str → Except DnsError Bytes) (hostname : Str) (packet : Bytes) : Prop :=
  skipDnsName packet 12 = packet.length - 4 ∧
    ∃ encodings, (dnsLabels hostname).mapM idna = .ok encodings ∧
      readLabels packet 12 = some encodings

def LengthsAgree (idna : Str → Except DnsError Bytes) (hostname : Str) : Prop :=
  ∀ label ∈ dnsLabels hostname, ∀ encoded, idna label = .ok encoded →
    encoded.length = label.length

section

variable {idna : Str → Except DnsError Bytes} {hostname : Str}

theorem exists_encodings (haccepted : ∀ label ∈ dnsLabels hostname, Accepts idna label) :
    ∃ encodings, (dnsLabels hostname).mapM idna = .ok encodings := by
  apply returns_mapM.mpr
  intro label hlabel
  obtain ⟨encoded, hencoded, -⟩ := haccepted label hlabel
  exact ⟨encoded, hencoded⟩

theorem forall₂_length_iff {labels : List Str} {encodings : List Bytes}
    (hzip : List.Forall₂ (fun label encoded => idna label = .ok encoded) labels encodings) :
    (∀ label ∈ labels, ∀ encoded, idna label = .ok encoded → encoded.length = label.length) ↔
      List.Forall₂ (fun label encoded => encoded.length = label.length) labels encodings := by
  induction hzip with
  | nil => simp
  | cons hencoded _ ih =>
      rw [List.forall_mem_cons, List.forall₂_cons, ih, hencoded]
      simp

theorem dnsPacket_eq (queryId qtype : Nat) {encodings : List Bytes}
    (hlabels : ∀ label ∈ dnsLabels hostname, IsDnsLabel label)
    (hencodings : (dnsLabels hostname).mapM idna = .ok encodings) :
    dnsPacket idna queryId hostname qtype = .ok (some (dnsHeader queryId ++
      ((List.zipWith wireLabel (dnsLabels hostname) encodings).flatten ++
        0 :: (pack16 qtype ++ pack16 1)))) := by
  have hne : dnsLabels hostname ≠ [] := List.splitOn_ne_nil _ _
  rw [dnsPacket, if_neg, dnsQuestion, mapM_encodedLabel hencodings]
  · simp [pure, Except.pure]
  · rintro (hnil | ⟨label, hlabel, hbad⟩)
    · exact hne hnil
    · obtain ⟨hlabelNe, hmost⟩ := hlabels label hlabel
      obtain hempty | hlong := hbad
      · exact hlabelNe hempty
      · omega

theorem readsBack_iff (queryId qtype : Nat) {encodings : List Bytes}
    (hlabels : ∀ label ∈ dnsLabels hostname, IsDnsLabel label)
    (hencodings : (dnsLabels hostname).mapM idna = .ok encodings) :
    ReadsBack idna hostname (dnsHeader queryId ++
        ((List.zipWith wireLabel (dnsLabels hostname) encodings).flatten ++
          0 :: (pack16 qtype ++ pack16 1))) ↔
      LengthsAgree idna hostname := by
  have hzip := mapM_eq_ok_iff_forall₂.mp hencodings
  have hread := readLabels_wire_iff hlabels hzip.length_eq.symm (dnsHeader queryId)
    (pack16 qtype ++ pack16 1)
  rw [LengthsAgree, forall₂_length_iff hzip]
  constructor
  · rintro ⟨-, encodings', hencodings', hlabels'⟩
    rw [hencodings, Except.ok.injEq] at hencodings'
    subst hencodings'
    exact hread.mp hlabels'
  · intro hlengths
    exact ⟨skipDnsName_wire hlabels hlengths (dnsHeader queryId) (pack16 qtype ++ pack16 1),
      encodings, hencodings, hread.mpr hlengths⟩

end

/-- The packet of a hostname is read back label by label exactly when the IDNA encoding of every
label has as many bytes as the label has characters. -/
theorem query_reads_back_iff {idna : Str → Except DnsError Bytes} {hostname : Str}
    (queryId qtype : Nat) (hlabels : ∀ label ∈ dnsLabels hostname, IsDnsLabel label)
    (haccepted : ∀ label ∈ dnsLabels hostname, Accepts idna label) :
    ∃ packet, dnsPacket idna queryId hostname qtype = .ok (some packet) ∧
      (ReadsBack idna hostname packet ↔ LengthsAgree idna hostname) := by
  obtain ⟨encodings, hencodings⟩ := exists_encodings haccepted
  exact ⟨_, dnsPacket_eq queryId qtype hlabels hencodings,
    readsBack_iff queryId qtype hlabels hencodings⟩

def sampleIdna (label : Str) : Except DnsError Bytes :=
  if label = "ü".toList then .ok ("xn--tda".toList.map fun c => UInt8.ofNat c.toNat)
  else if ∀ c ∈ label, c.toNat < 128 then .ok (label.map fun c => UInt8.ofNat c.toNat)
  else .error .unicodeError

instance (idna : Str → Except DnsError Bytes) (label : Str) : Decidable (Accepts idna label) :=
  match h : idna label with
  | .ok encoded =>
      decidable_of_iff (0 < encoded.length ∧ encoded.length ≤ 63 ∧ ∀ byte ∈ encoded, byte < 128)
        (by simp [Accepts, h])
  | .error _ => isFalse (by simp [Accepts, h])

instance (label : Str) : Decidable (IsDnsLabel label) := by
  unfold IsDnsLabel; infer_instance

theorem query_reads_back_iff_example :
    ∃ packet, dnsPacket sampleIdna 7 "api.example.org.".toList 28 = .ok (some packet) ∧
      (ReadsBack sampleIdna "api.example.org.".toList packet ↔
        LengthsAgree sampleIdna "api.example.org.".toList) :=
  query_reads_back_iff 7 28 (by decide) (by decide)

/-- The octet before the encoding of `ü` says 1 where seven bytes follow. -/
theorem umlaut_is_not_read_back :
    (∀ label ∈ dnsLabels "ü.org".toList, IsDnsLabel label ∧ Accepts sampleIdna label) ∧
      ∃ packet, dnsPacket sampleIdna 7 "ü.org".toList 1 = .ok (some packet) ∧
        ¬ ReadsBack sampleIdna "ü.org".toList packet := by
  have hlabels : ∀ label ∈ dnsLabels "ü.org".toList, IsDnsLabel label := by decide
  have haccepted : ∀ label ∈ dnsLabels "ü.org".toList, Accepts sampleIdna label := by decide
  refine ⟨fun label hlabel => ⟨hlabels label hlabel, haccepted label hlabel⟩, ?_⟩
  obtain ⟨encodings, hencodings⟩ := exists_encodings haccepted
  refine ⟨_, dnsPacket_eq 7 1 hlabels hencodings, ?_⟩
  rw [readsBack_iff 7 1 hlabels hencodings]
  intro hagree
  exact absurd (hagree "ü".toList (by decide) _ rfl) (by decide)

end OpenStarry.Sandbox
