import KeyManagement.Proofs.Http.Payload
import KeyManagement.Proofs.Name.Inversion
import KeyManagement.Proofs.Service.Naming
import Mathlib.Data.List.TakeWhile

/-! # What a request asks for

The operation that a method and a route come to, read off the decoded parameters of the route.
A custom method is spelled behind the first colon of the last parameter, and no valid
identifier holds a colon.
-/

namespace KeyManagement.Http

open ResourceName

namespace Route

/-- The route with the parameters that its raw segments decode to. -/
def decode : Route → Except Undecodable Route
  | .health => .ok .health
  | .keyRings n => (decodeLocation n).map .keyRings
  | .keyRing n => (decodeKeyRing n).map .keyRing
  | .cryptoKeys n => (decodeKeyRing n).map .cryptoKeys
  | .cryptoKey n => (decodeCryptoKey n).map .cryptoKey
  | .versions n => (decodeCryptoKey n).map .versions
  | .version n => (decodeVersion n).map .version

end Route

/-- The operation that a method asks for on a route with decoded parameters. The resource name
in it is made of these parameters, which the grammar accepts as identifiers, and so are the
names that the operation makes of it. -/
inductive Asks (query : String) (body : Bytes) : Method → Route → Operation → Prop
  | listKeyRings {n : LocationName} {token : String} (hn : (location n).Grammatical)
      (ht : queryField query "pageToken" = .ok token) :
      Asks query body .get (.keyRings n) (.listKeyRings n.resourceName token)
  | createKeyRing {n : LocationName} {id : String} (hn : (keyRing (n.ring id)).Grammatical)
      (hi : queryField query "keyRingId" = .ok id) :
      Asks query body .post (.keyRings n) (.createKeyRing n.resourceName id)
  | getKeyRing {n : KeyRingName} (hn : (keyRing n).Grammatical) :
      Asks query body .get (.keyRing n) (.getKeyRing n.resourceName)
  | listCryptoKeys {n : KeyRingName} {token : String} (hn : (keyRing n).Grammatical)
      (ht : queryField query "pageToken" = .ok token) :
      Asks query body .get (.cryptoKeys n) (.listCryptoKeys n.resourceName token)
  | createCryptoKey {n : KeyRingName} {id : String} {spec : Option CryptoKeySpec}
      (hn : (cryptoKey (n.key id)).Grammatical) (hi : queryField query "cryptoKeyId" = .ok id)
      (hs : decodeBody CryptoKeySpec.ofJson? body = .ok spec) :
      Asks query body .post (.cryptoKeys n) (.createCryptoKey n.resourceName id spec)
  | getCryptoKey {n : CryptoKeyName} (hn : (cryptoKey n).Grammatical) :
      Asks query body .get (.cryptoKey n) (.getCryptoKey n.resourceName)
  | encrypt {n : CryptoKeyName} {request : Option EncryptRequest}
      (hn : (cryptoKey n).Grammatical)
      (hb : decodeBody (encryptOfJson? n.resourceName) body = .ok request) :
      Asks query body .post (.cryptoKey (n.parent.key (n.cryptoKey ++ ":" ++ "encrypt")))
        (.encrypt (request.getD { name := n.resourceName }))
  | decrypt {n : CryptoKeyName} {request : Option DecryptRequest}
      (hn : (cryptoKey n).Grammatical)
      (hb : decodeBody (decryptOfJson? n.resourceName) body = .ok request) :
      Asks query body .post (.cryptoKey (n.parent.key (n.cryptoKey ++ ":" ++ "decrypt")))
        (.decrypt (request.getD { name := n.resourceName }))
  | updatePrimary {n : CryptoKeyName} {id : String}
      (hn : (cryptoKeyVersion ⟨n, id⟩).Grammatical)
      (hb : decodeBody versionIdOfJson? body = .ok (some id)) :
      Asks query body .post
        (.cryptoKey (n.parent.key (n.cryptoKey ++ ":" ++ "updatePrimaryVersion")))
        (.updatePrimary n.resourceName id)
  | listVersions {n : CryptoKeyName} {token : String} (hn : (cryptoKey n).Grammatical)
      (ht : queryField query "pageToken" = .ok token) :
      Asks query body .get (.versions n) (.listVersions n.resourceName token)
  | createVersion {n : CryptoKeyName} (hn : (cryptoKey n).Grammatical) :
      Asks query body .post (.versions n) (.createVersion n.resourceName)
  | getVersion {n : CryptoKeyVersionName} (hn : (cryptoKeyVersion n).Grammatical) :
      Asks query body .get (.version n) (.getVersion n.resourceName)

section Verbs

theorem colon_not_mem_of_isId {s : String} (h : isId s = true) : ':' ∉ s.toList := by
  intro hm
  simp only [isId, Bool.and_eq_true, List.all_eq_true] at h
  exact absurd (h.1.2 _ hm) (by decide)

theorem eq_append_of_dropWhile {l rest : List Char} {c d : Char}
    (h : l.dropWhile (· ≠ c) = d :: rest) : l = l.takeWhile (· ≠ c) ++ c :: rest := by
  induction l with
  | nil => contradiction
  | cons a l ih =>
    by_cases ha : a = c
    · subst ha
      simp_all
    · rw [List.dropWhile_cons_of_pos (by simpa using ha)] at h
      rw [List.takeWhile_cons_of_pos (by simpa using ha), List.cons_append, ← ih h]

theorem splitVerb_eq_some_iff {s id verb : String} :
    splitVerb s = some (id, verb) ↔ s = id ++ ":" ++ verb ∧ ':' ∉ id.toList := by
  constructor
  · intro h
    unfold splitVerb at h
    split at h
    · contradiction
    · next c rest hd =>
      obtain ⟨rfl, rfl⟩ := Prod.mk.inj (Option.some.inj h)
      refine ⟨String.toList_injective ?_, fun hm => ?_⟩
      · simpa using eq_append_of_dropWhile hd
      · rw [String.toList_ofList] at hm
        have := List.mem_takeWhile_imp hm
        simp at this
  · rintro ⟨rfl, hid⟩
    have hne : ∀ c ∈ id.toList, decide (c ≠ ':') = true := by
      intro c hc
      exact decide_eq_true (fun he => hid (he ▸ hc))
    have hl : (id ++ ":" ++ verb).toList = id.toList ++ ':' :: verb.toList := by simp
    rw [splitVerb, hl, List.dropWhile_append_of_pos hne, List.takeWhile_append_of_pos hne]
    simp

theorem splitVerb_append {n : CryptoKeyName} (hn : n.Valid) (verb : String) :
    splitVerb (n.cryptoKey ++ ":" ++ verb) = some (n.cryptoKey, verb) :=
  splitVerb_eq_some_iff.mpr ⟨rfl, colon_not_mem_of_isId hn.2⟩

end Verbs

variable {query : String} {body : Bytes} {method : Method} {route decoded : Route}
  {op : Operation}

section Forward

theorem named_eq_ok_iff {α : Type} {x : Except Route.Undecodable α} {n : α} :
    named x = .ok n ↔ x = .ok n := by
  cases x <;> simp [named]

theorem map_of_named {α β : Type} {x : Except Route.Undecodable α} {n : α} (f : α → β)
    (h : named x = .ok n) : x.map f = .ok (f n) := by
  rw [named_eq_ok_iff.mp h]
  rfl

theorem grammatical_location {n : LocationName}
    (h : ∃ m, LocationName.parse n.resourceName = .ok m) : (location n).Grammatical := by
  obtain ⟨m, hm⟩ := h
  obtain ⟨rfl, hv⟩ := LocationName.parse_resourceName_eq_ok_iff.mp hm
  exact grammatical_location_iff.mpr hv

theorem grammatical_keyRing {n : KeyRingName}
    (h : ∃ m, KeyRingName.parse n.resourceName = .ok m) : (keyRing n).Grammatical := by
  obtain ⟨m, hm⟩ := h
  obtain ⟨rfl, hv⟩ := KeyRingName.parse_resourceName_eq_ok_iff.mp hm
  exact grammatical_keyRing_iff.mpr hv

theorem grammatical_cryptoKey {n : CryptoKeyName}
    (h : ∃ m, CryptoKeyName.parse n.resourceName = .ok m) : (cryptoKey n).Grammatical := by
  obtain ⟨m, hm⟩ := h
  obtain ⟨rfl, hv⟩ := CryptoKeyName.parse_resourceName_eq_ok_iff.mp hm
  exact grammatical_cryptoKey_iff.mpr hv

theorem grammatical_cryptoKeyVersion {n : CryptoKeyVersionName}
    (h : ∃ m, CryptoKeyVersionName.parse n.resourceName = .ok m) :
    (cryptoKeyVersion n).Grammatical := by
  obtain ⟨m, hm⟩ := h
  obtain ⟨rfl, hv⟩ := CryptoKeyVersionName.parse_resourceName_eq_ok_iff.mp hm
  exact grammatical_cryptoKeyVersion_iff.mpr hv

theorem asks_of_keyMethod {n : CryptoKeyName} (h : keyMethod n body = .ok op)
    (hop : op.WellNamed) : Asks query body .post (.cryptoKey n) op := by
  obtain ⟨ring, key⟩ := n
  unfold keyMethod at h
  split at h
  · contradiction
  next id verb hsplit =>
  obtain ⟨rfl, -⟩ := splitVerb_eq_some_iff.mp hsplit
  split at h
  · next hverb =>
    obtain ⟨request, hb, h⟩ := result_bind_eq_ok_iff.mp h
    cases h
    subst hverb
    have hn : (cryptoKey (ring.key id)).Grammatical :=
      grammatical_cryptoKey (name_of_decodeBody_encrypt hb ▸ hop)
    exact .encrypt (n := ring.key id) hn hb
  · split at h
    · next hverb =>
      obtain ⟨request, hb, h⟩ := result_bind_eq_ok_iff.mp h
      cases h
      subst hverb
      have hn : (cryptoKey (ring.key id)).Grammatical :=
        grammatical_cryptoKey (name_of_decodeBody_decrypt hb ▸ hop)
      exact .decrypt (n := ring.key id) hn hb
    · split at h
      · next hverb =>
        obtain ⟨versionId, hb, h⟩ := result_bind_eq_ok_iff.mp h
        cases h
        subst hverb
        obtain ⟨n, hn, hv⟩ := hop
        obtain ⟨rfl, -⟩ := CryptoKeyName.parse_resourceName_eq_ok_iff.mp hn
        cases versionId with
        | none => exact absurd (show isVersionId "" = true from hv.2) (by decide)
        | some versionId =>
          exact .updatePrimary (n := ring.key id) (grammatical_cryptoKeyVersion_iff.mpr hv) hb
      · contradiction

/-- A request whose operation can succeed asks for it by valid parameters. -/
theorem asks_of_task (h : task query body method route = .ok (.perform op))
    (hop : op.WellNamed) : ∃ decoded, route.decode = .ok decoded ∧
      Asks query body method decoded op := by
  cases method with
  | get =>
    cases route with
    | health => nomatch h
    | keyRings raw =>
      obtain ⟨n, hn, h⟩ := result_bind_eq_ok_iff.mp h
      obtain ⟨token, ht, ⟨⟩⟩ := result_bind_eq_ok_iff.mp h
      exact ⟨_, map_of_named _ hn, .listKeyRings (grammatical_location hop) ht⟩
    | keyRing raw =>
      obtain ⟨n, hn, ⟨⟩⟩ := result_bind_eq_ok_iff.mp h
      exact ⟨_, map_of_named _ hn, .getKeyRing (grammatical_keyRing hop)⟩
    | cryptoKeys raw =>
      obtain ⟨n, hn, h⟩ := result_bind_eq_ok_iff.mp h
      obtain ⟨token, ht, ⟨⟩⟩ := result_bind_eq_ok_iff.mp h
      exact ⟨_, map_of_named _ hn, .listCryptoKeys (grammatical_keyRing hop) ht⟩
    | cryptoKey raw =>
      obtain ⟨n, hn, ⟨⟩⟩ := result_bind_eq_ok_iff.mp h
      exact ⟨_, map_of_named _ hn, .getCryptoKey (grammatical_cryptoKey hop)⟩
    | versions raw =>
      obtain ⟨n, hn, h⟩ := result_bind_eq_ok_iff.mp h
      obtain ⟨token, ht, ⟨⟩⟩ := result_bind_eq_ok_iff.mp h
      exact ⟨_, map_of_named _ hn, .listVersions (grammatical_cryptoKey hop) ht⟩
    | version raw =>
      obtain ⟨n, hn, ⟨⟩⟩ := result_bind_eq_ok_iff.mp h
      exact ⟨_, map_of_named _ hn, .getVersion (grammatical_cryptoKeyVersion hop)⟩
  | post =>
    cases route with
    | health => nomatch h
    | keyRing raw => nomatch h
    | version raw => nomatch h
    | keyRings raw =>
      obtain ⟨n, hn, h⟩ := result_bind_eq_ok_iff.mp h
      obtain ⟨id, hi, ⟨⟩⟩ := result_bind_eq_ok_iff.mp h
      obtain ⟨_, hl, hv⟩ := hop
      obtain ⟨rfl, -⟩ := LocationName.parse_resourceName_eq_ok_iff.mp hl
      exact ⟨_, map_of_named _ hn, .createKeyRing (grammatical_keyRing_iff.mpr hv) hi⟩
    | cryptoKeys raw =>
      obtain ⟨n, hn, h⟩ := result_bind_eq_ok_iff.mp h
      obtain ⟨id, hi, h⟩ := result_bind_eq_ok_iff.mp h
      obtain ⟨spec, hs, ⟨⟩⟩ := result_bind_eq_ok_iff.mp h
      obtain ⟨_, hr, hv⟩ := hop
      obtain ⟨rfl, -⟩ := KeyRingName.parse_resourceName_eq_ok_iff.mp hr
      exact ⟨_, map_of_named _ hn, .createCryptoKey (grammatical_cryptoKey_iff.mpr hv) hi hs⟩
    | cryptoKey raw =>
      obtain ⟨n, hn, h⟩ := result_bind_eq_ok_iff.mp h
      obtain ⟨op', hk, ⟨⟩⟩ := result_bind_eq_ok_iff.mp h
      exact ⟨_, map_of_named _ hn, asks_of_keyMethod hk hop⟩
    | versions raw =>
      obtain ⟨n, hn, ⟨⟩⟩ := result_bind_eq_ok_iff.mp h
      exact ⟨_, map_of_named _ hn, .createVersion (grammatical_cryptoKey hop)⟩

end Forward

section Backward

theorem keyMethod_of_asks {n : CryptoKeyName} (h : Asks query body .post (.cryptoKey n) op) :
    keyMethod n body = .ok op := by
  cases h with
  | @encrypt n _ hn hb =>
    simp only [keyMethod, KeyRingName.key, splitVerb_append (grammatical_cryptoKey_iff.mp hn),
      if_true]
    exact result_bind_of_ok hb rfl
  | @decrypt n _ hn hb =>
    simp only [keyMethod, KeyRingName.key, splitVerb_append (grammatical_cryptoKey_iff.mp hn),
      if_true]
    exact result_bind_of_ok hb rfl
  | @updatePrimary n _ hn hb =>
    simp only [keyMethod, KeyRingName.key,
      splitVerb_append (grammatical_cryptoKeyVersion_iff.mp hn).1, if_true]
    exact result_bind_of_ok hb rfl

theorem named_bind_of_ok {α β : Type} {x : Except Route.Undecodable α} {n : α}
    {f : α → Except Response β} {b : β} (h : x = .ok n) (hf : f n = .ok b) :
    named x >>= f = .ok b :=
  result_bind_of_ok (named_eq_ok_iff.mpr h) hf

/-- What is asked for is what a request comes to. -/
theorem task_of_asks (hd : route.decode = .ok decoded) (h : Asks query body method decoded op) :
    task query body method route = .ok (.perform op) := by
  cases route with
  | health =>
    cases hd
    nomatch h
  | keyRings raw =>
    obtain ⟨n, hn, rfl⟩ := map_result_eq_ok_iff.mp hd
    cases h with
    | listKeyRings hv ht => exact named_bind_of_ok hn (result_bind_of_ok ht rfl)
    | createKeyRing hv hi => exact named_bind_of_ok hn (result_bind_of_ok hi rfl)
  | keyRing raw =>
    obtain ⟨n, hn, rfl⟩ := map_result_eq_ok_iff.mp hd
    cases h
    exact named_bind_of_ok hn rfl
  | cryptoKeys raw =>
    obtain ⟨n, hn, rfl⟩ := map_result_eq_ok_iff.mp hd
    cases h with
    | listCryptoKeys hv ht => exact named_bind_of_ok hn (result_bind_of_ok ht rfl)
    | createCryptoKey hv hi hs =>
      exact named_bind_of_ok hn (result_bind_of_ok hi (result_bind_of_ok hs rfl))
  | cryptoKey raw =>
    obtain ⟨n, hn, rfl⟩ := map_result_eq_ok_iff.mp hd
    cases method with
    | get =>
      cases h
      exact named_bind_of_ok hn rfl
    | post =>
      exact named_bind_of_ok hn (result_bind_of_ok (keyMethod_of_asks h) rfl)
  | versions raw =>
    obtain ⟨n, hn, rfl⟩ := map_result_eq_ok_iff.mp hd
    cases h with
    | listVersions hv ht => exact named_bind_of_ok hn (result_bind_of_ok ht rfl)
    | createVersion hv => exact named_bind_of_ok hn rfl
  | version raw =>
    obtain ⟨n, hn, rfl⟩ := map_result_eq_ok_iff.mp hd
    cases h
    exact named_bind_of_ok hn rfl

end Backward

end KeyManagement.Http
