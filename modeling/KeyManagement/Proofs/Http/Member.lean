import KeyManagement.Proofs.Http.Payload
import KeyManagement.Proofs.Json.Record
import KeyManagement.Proofs.Json.Size
import KeyManagement.Proofs.Service.Availability
import KeyManagement.Proofs.Text.Base64

/-! # Members of bodies

How bytes and checksums stand in the objects of bodies and answers, and what the body of an
encryption or a decryption is read as. Members with other names do not count.
-/

namespace KeyManagement

namespace Json

theorem foldlM_step_blank {bytes : Bytes} (h : bytes.all Http.isBlankByte = true) :
    bytes.foldlM Lexer.step {} = none ∨ bytes.foldlM Lexer.step {} = some {} := by
  induction bytes with
  | nil => exact .inr rfl
  | cons b bytes ih =>
    rw [List.all_cons, Bool.and_eq_true] at h
    have hb : b = 0x20 ∨ b = 0x09 ∨ b = 0x0a ∨ b = 0x0c ∨ b = 0x0d := by
      simpa [Http.isBlankByte] using h.1
    rcases hb with rfl | rfl | rfl | rfl | rfl
    · exact ih h.2
    · exact ih h.2
    · exact ih h.2
    · exact .inl rfl
    · exact ih h.2

theorem parse?_of_blank {bytes : Bytes} (h : bytes.all Http.isBlankByte = true) :
    parse? bytes = none := by
  rcases foldlM_step_blank h with hs | hs
  · simp [parse?, tokens?, hs]
  · simp [parse?, tokens?, hs, Lexer.settle, ofTokens?]

end Json

namespace Http

open Checksum

/-- Bytes stand in a member as base64; there may be no member if there are no bytes. -/
def HasBytes (members : List (String × Json)) (name : String) (data : Bytes) : Prop :=
  Json.member? members name = some (some (.text (Base64.encode data))) ∨
    data = [] ∧ Json.member? members name = some none

/-- The checksum of data is absent, null, zero or right. -/
def HasChecksum (members : List (String × Json)) (name : String) (data : Bytes) : Prop :=
  ∃ field ∈ [none, some Json.null, some (.integer 0), some (.integer (crc32c data).toNat)],
    Json.member? members name = some field

/-- The members of a body that asks for an encryption. -/
structure EncryptMembers (p a : Bytes) (members : List (String × Json)) : Prop where
  plaintext : HasBytes members "plaintext" p
  aad : HasBytes members "additionalAuthenticatedData" a
  plaintextCrc : HasChecksum members "plaintextCrc32c" p
  aadCrc : HasChecksum members "additionalAuthenticatedDataCrc32c" a

/-- The members of an answer that holds the ciphertext of some plaintext, and names the version
that sealed it. -/
structure CiphertextMembers (p : Bytes) (version : String) (members : List (String × Json)) :
    Prop where
  name : Json.member? members "name" = some (some (.text version))
  ciphertext : ∃ data : Bytes, data.length ≤ p.length + Service.maxOverhead ∧
    Json.member? members "ciphertext" = some (some (.text (Base64.encode data))) ∧
    Json.member? members "ciphertextCrc32c" = some (some (.integer (crc32c data).toNat))

/-- The members of a body that asks for a decryption, with the ciphertext and its checksum as
they stand in an answer. -/
structure DecryptMembers (answer : List (String × Json)) (a : Bytes)
    (members : List (String × Json)) : Prop where
  ciphertext : Json.member? members "ciphertext" = Json.member? answer "ciphertext"
  ciphertextCrc : Json.member? members "ciphertextCrc32c" = Json.member? answer "ciphertextCrc32c"
  aad : HasBytes members "additionalAuthenticatedData" a
  aadCrc : HasChecksum members "additionalAuthenticatedDataCrc32c" a

/-- The members of an answer that gives bytes back, and tells whether the version that sealed
them is the primary. -/
structure PlaintextMembers (p : Bytes) (isPrimary : Prop) (members : List (String × Json)) :
    Prop where
  plaintext : ∃ text, Json.member? members "plaintext" = some (some (.text text)) ∧
    Base64.decode? text = some p
  plaintextCrc :
    Json.member? members "plaintextCrc32c" = some (some (.integer (crc32c p).toNat))
  usedPrimary : ∃ used, Json.member? members "usedPrimary" = some (some (.bool used)) ∧
    (used = true ↔ isPrimary)

/-- A response with status 200, whose body is read as an object with the given members. -/
def Response.Shows (response : Response) (members : List (String × Json)) : Prop :=
  response.status = 200 ∧
    Json.parse? (Bytes.ofText response.body.render) = some (.record members)

section Fields

variable {members answer : List (String × Json)} {name : String} {data plaintext aad body : Bytes}

theorem bytesOfJson?_text_encode (data : Bytes) :
    bytesOfJson? (.text (Base64.encode data)) = some data := by
  rw [bytesOfJson?, Json.text, Json.text?, Option.bind_some, Base64.decode?_encode]

theorem toWire_eq (crc : BitVec 32) : toWire crc = crc.toNat := rfl

theorem checksumOfJson?_toWire (crc : BitVec 32) :
    Json.option? integerOfJson? (.integer (toWire crc)) = some (some (toWire crc)) := by
  have h := crc.isLt
  have hi : integerOfJson? (.integer (toWire crc)) = some (toWire crc) := by
    rw [integerOfJson?, if_pos]
    unfold toWire
    omega
  simp [Json.option?, hi]

theorem HasBytes.exists_field (h : HasBytes members name data) : ∃ field,
    Json.member? members name = some field ∧
      Json.optional [] bytesOfJson? field = some data := by
  rcases h with h | ⟨rfl, h⟩
  · exact ⟨_, h, bytesOfJson?_text_encode data⟩
  · exact ⟨_, h, rfl⟩

theorem HasBytes.length_le {size : Nat} (h : HasBytes members name data)
    (hw : Json.Within size (.record members)) : data.length ≤ size := by
  rcases h with h | ⟨rfl, -⟩
  · exact Nat.le_trans (Base64.length_le_encode data) (hw.member h).length_le
  · exact Nat.zero_le size

theorem HasChecksum.exists_field (h : HasChecksum members name data) : ∃ field crc,
    Json.member? members name = some field ∧
      Json.optional none (Json.option? integerOfJson?) field = some crc ∧ Accepted data crc := by
  obtain ⟨field, hf, hm⟩ := h
  simp only [List.mem_cons, List.not_mem_nil, or_false] at hf
  rcases hf with rfl | rfl | rfl | rfl
  · exact ⟨_, none, hm, rfl, .inl rfl⟩
  · exact ⟨_, none, hm, rfl, .inl rfl⟩
  · exact ⟨_, some 0, hm, by simp [Json.option?, integerOfJson?], .inr (.inl rfl)⟩
  · rw [← toWire_eq] at hm
    refine ⟨_, some (toWire (crc32c data)), hm, ?_, .inr (.inr rfl)⟩
    rw [Json.optional_some, checksumOfJson?_toWire]

theorem decodeBody_of_record {α : Type} {read : Json → Option α} {a : α}
    (hb : Json.parse? body = some (.record members)) (hr : read (.record members) = some a) :
    decodeBody read body = .ok (some a) := by
  refine decodeBody_eq_ok_some_iff.mpr ⟨?_, _, hb, hr⟩
  rw [← Bool.not_eq_true]
  intro hblank
  rw [Json.parse?_of_blank hblank] at hb
  contradiction

theorem EncryptMembers.decodeBody (h : EncryptMembers plaintext aad members)
    (hb : Json.parse? body = some (.record members)) (name : String) :
    ∃ plaintextCrc aadCrc, decodeBody (encryptOfJson? name) body =
        .ok (some { name, plaintext, aad, plaintextCrc, aadCrc }) ∧
      Accepted plaintext plaintextCrc ∧ Accepted aad aadCrc := by
  obtain ⟨p, hp, hpv⟩ := h.plaintext.exists_field
  obtain ⟨a, ha, hav⟩ := h.aad.exists_field
  obtain ⟨pc, plaintextCrc, hpc, hpcv, hpa⟩ := h.plaintextCrc.exists_field
  obtain ⟨ac, aadCrc, hac, hacv, haa⟩ := h.aadCrc.exists_field
  refine ⟨plaintextCrc, aadCrc, decodeBody_of_record hb ?_, hpa, haa⟩
  simp [encryptOfJson?, Json.fields?_record, hp, ha, hpc, hac, hpv, hav, hpcv, hacv]

/-- The members of the answer to an encryption. -/
def encryptedMembers (r : EncryptResponse) : List (String × Json) :=
  [("name", .text r.name),
    ("ciphertext", jsonOfBytes r.ciphertext),
    ("ciphertextCrc32c", .integer r.ciphertextCrc),
    ("verifiedPlaintextCrc32c", .bool r.verifiedPlaintext),
    ("verifiedAdditionalAuthenticatedDataCrc32c", .bool r.verifiedAad)]

theorem member?_ciphertext (r : EncryptResponse) :
    Json.member? (encryptedMembers r) "ciphertext" =
      some (some (.text (Base64.encode r.ciphertext))) := by
  simp [Json.member?, encryptedMembers, jsonOfBytes]

theorem member?_ciphertextCrc (r : EncryptResponse) :
    Json.member? (encryptedMembers r) "ciphertextCrc32c" =
      some (some (.integer r.ciphertextCrc)) := by
  simp [Json.member?, encryptedMembers]

theorem ciphertextMembers_encryptedMembers (r : EncryptResponse)
    (hc : r.ciphertextCrc = toWire (crc32c r.ciphertext))
    (hl : r.ciphertext.length ≤ plaintext.length + Service.maxOverhead) :
    CiphertextMembers plaintext r.name (encryptedMembers r) where
  name := by simp [Json.member?, encryptedMembers]
  ciphertext :=
    ⟨r.ciphertext, hl, member?_ciphertext r, by rw [member?_ciphertextCrc, hc, toWire_eq]⟩

theorem shows_encrypted (r : EncryptResponse) :
    Response.Shows (.ok (responseJson (.encrypted r))) (encryptedMembers r) := by
  refine ⟨rfl, Json.parse?_render (.record ?_)⟩
  simp only [List.forall_mem_cons]
  exact ⟨.text _, .text _, .integer _, .bool _, .bool _, nofun⟩

theorem DecryptMembers.decodeBody {r : EncryptResponse}
    (h : DecryptMembers (encryptedMembers r) aad members)
    (hc : r.ciphertextCrc = toWire (crc32c r.ciphertext))
    (hb : Json.parse? body = some (.record members)) (name : String) :
    ∃ aadCrc, decodeBody (decryptOfJson? name) body = .ok (some {
        name, ciphertext := r.ciphertext, aad, ciphertextCrc := some r.ciphertextCrc, aadCrc }) ∧
      Accepted aad aadCrc := by
  obtain ⟨a, ha, hav⟩ := h.aad.exists_field
  obtain ⟨ac, aadCrc, hac, hacv, haa⟩ := h.aadCrc.exists_field
  have hct := h.ciphertext.trans (member?_ciphertext r)
  have hcc := h.ciphertextCrc.trans (member?_ciphertextCrc r)
  have hcv : Json.option? integerOfJson? (.integer r.ciphertextCrc) =
      some (some r.ciphertextCrc) := by
    rw [hc]
    exact checksumOfJson?_toWire _
  refine ⟨aadCrc, decodeBody_of_record hb ?_, haa⟩
  simp [decryptOfJson?, Json.fields?_record, ha, hac, hct, hcc, hav, hacv, hcv,
    bytesOfJson?_text_encode]

/-- The members of the answer to a decryption. -/
def decryptedMembers (r : DecryptResponse) : List (String × Json) :=
  [("plaintext", jsonOfBytes r.plaintext),
    ("plaintextCrc32c", .integer r.plaintextCrc),
    ("usedPrimary", .bool r.usedPrimary)]

theorem plaintextMembers_decryptedMembers (r : DecryptResponse) {isPrimary : Prop}
    (hc : r.plaintextCrc = toWire (crc32c r.plaintext)) (hp : r.usedPrimary = true ↔ isPrimary) :
    PlaintextMembers r.plaintext isPrimary (decryptedMembers r) where
  plaintext := ⟨_, by simp [Json.member?, decryptedMembers, jsonOfBytes], Base64.decode?_encode _⟩
  plaintextCrc := by simp [Json.member?, decryptedMembers, hc, toWire_eq]
  usedPrimary := ⟨_, by simp [Json.member?, decryptedMembers], hp⟩

theorem shows_decrypted (r : DecryptResponse) :
    Response.Shows (.ok (responseJson (.decrypted r))) (decryptedMembers r) := by
  refine ⟨rfl, Json.parse?_render (.record ?_)⟩
  simp only [List.forall_mem_cons]
  exact ⟨.text _, .integer _, .bool _, nofun⟩

/-- A body with the ciphertext and the checksum of an answer. -/
def copiedMembers (data : Bytes) : List (String × Json) :=
  [("ciphertext", .text (Base64.encode data)),
    ("ciphertextCrc32c", .integer (crc32c data).toNat)]

theorem length_render_copiedMembers_le (data : Bytes) :
    (Bytes.ofText (Json.record (copiedMembers data)).render).length ≤ 12 * data.length + 69 := by
  have hrender : (Json.record (copiedMembers data)).render =
      "\x7b\"ciphertext\":" ++ Json.renderText (Base64.encode data) ++
        ",\"ciphertextCrc32c\":" ++ Decimal.render (crc32c data).toNat ++ "\x7d" := by
    have hfirst : Json.renderText "ciphertext" = "\"ciphertext\"" := by decide
    have hsecond : Json.renderText "ciphertextCrc32c" = "\"ciphertextCrc32c\"" := by decide
    simp only [copiedMembers, Json.record, List.map_cons, List.map_nil, Json.render,
      Json.renderMembers, Json.text, Option.getD_some, hfirst, hsecond, Json.renderInteger,
      Int.natCast_nonneg, if_true, Int.toNat_natCast, String.intercalate_cons_cons,
      String.intercalate_singleton, String.append_assoc]
    rfl
  have hfirst : "\x7b\"ciphertext\":".utf8ByteSize = 14 := rfl
  have hsecond : ",\"ciphertextCrc32c\":".utf8ByteSize = 20 := rfl
  have hlast : "\x7d".utf8ByteSize = 1 := rfl
  have htext := Json.length_ofText_renderText_le (Base64.encode data)
  have hcrc : (Decimal.render (crc32c data).toNat).utf8ByteSize ≤ 20 :=
    Decimal.utf8ByteSize_render_le (Nat.lt_trans (crc32c data).isLt (by decide))
  have hbase := Base64.length_encodeChars_le data
  rw [Base64.encode, String.toList_ofList, ← Base64.encode, Bytes.length_ofText] at htext
  simp only [hrender, Bytes.length_ofText, String.utf8ByteSize_append, hfirst, hsecond, hlast]
  omega

theorem CiphertextMembers.exists_copy {version : String}
    (h : CiphertextMembers plaintext version answer) :
    ∃ body members, body.length ≤ 12 * (plaintext.length + Service.maxOverhead) + 69 ∧
      Json.parse? body = some (.record members) ∧ DecryptMembers answer [] members := by
  obtain ⟨data, hl, hd, hc⟩ := h.ciphertext
  refine ⟨_, copiedMembers data, ?_, Json.parse?_render (.record ?_), ?_⟩
  · have := length_render_copiedMembers_le data
    omega
  · simp only [copiedMembers, List.forall_mem_cons]
    exact ⟨.text _, .integer _, nofun⟩
  · constructor
    case ciphertext =>
      rw [hd]
      simp [Json.member?, copiedMembers]
    case ciphertextCrc =>
      rw [hc]
      simp [Json.member?, copiedMembers]
    case aad => exact .inr ⟨rfl, by simp [Json.member?, copiedMembers]⟩
    case aadCrc => exact ⟨none, .head _, by simp [Json.member?, copiedMembers]⟩

end Fields

end Http

end KeyManagement
