import KeyManagement.Proofs.Http.Member
import KeyManagement.Proofs.Http.Target
import KeyManagement.Proofs.Http.Traffic
import KeyManagement.Proofs.Service.Availability

/-! # Encryption and decryption over HTTP

What is posted to the encryption of a crypto key comes back from its decryption, whatever else
is asked for in between. The two bodies and the two answers agree on the names of their members
and on how bytes and checksums stand in them.
-/

namespace KeyManagement.Http

open Checksum

variable {σ : Type} {env : Environment σ} {random : Nat → σ → Bytes × σ} {server : Server}
  {st st' : Service.State Store σ} {n : CryptoKeyName} {ctx : Context} {w : σ}

/-- A request for a custom method of a crypto key. -/
def post (n : CryptoKeyName) (verb : String) (body : Bytes) : Request where
  method := "POST"
  target := methodPath n verb
  body := body

theorem valid_of_getCryptoKey {s : Store} {key : CryptoKey}
    (h : s.getCryptoKey n.resourceName = .ok key) : n.Valid := by
  obtain ⟨record, hr, -⟩ := Store.getCryptoKey_eq_ok_iff.mp h
  obtain ⟨m, -, hm, -, -⟩ := Store.findKey?_eq_some_iff.mp hr
  obtain ⟨rfl, hv⟩ := CryptoKeyName.parse_resourceName_eq_ok_iff.mp hm
  exact hv

theorem receive_post {verb : String} {body : Bytes} {op : Operation}
    {r : KeyManagement.Response} (hn : n.Valid) (hv : Plain verb)
    (hsize : body.length ≤ bodyLimit)
    (ha : Asks (Target.parse (methodPath n verb)).query body .post (methodRoute n verb) op)
    (hc : env.requestContext? server.root server.timeout st.world = some (ctx, w))
    (hp : Service.perform env ctx op ⟨st.store, w⟩ = .ok r st') :
    server.receive env (post n verb body) st = (some (.ok (responseJson r)), st') := by
  have hroute : Route.match? (Target.parse (post n verb body).target).path =
      some (methodRoute n verb) := by
    rw [post, path_parse_methodPath hn hv, match?_methodPath hn hv]
  have hm : (post n verb body).method = Method.post.name := rfl
  have hi := (interpret_eq hm hroute).trans (task_of_asks (decode_methodRoute hn hv) ha)
  rw [receive_of_within (exceedsLimit_of_le hsize)]
  exact (respond_eq_some_iff hm hi).mpr ⟨ctx, w, hc, .inl ⟨r, hp, rfl⟩⟩

section Halves

variable {p a body : Bytes} {members : List (String × Json)}

theorem exists_receive_encrypt (he : env.UsesAesGcm random) (hst : Service.Reachable env st)
    {record : KeyRecord} (hr : st.store.findKey? n.resourceName = some record) (hn : n.Valid)
    (hc : env.requestContext? server.root server.timeout st.world = some (ctx, w))
    (hl : env.Live ctx w) (hsize : body.length ≤ bodyLimit)
    (hb : Json.parse? body = some (.record members)) (hm : EncryptMembers p a members) :
    ∃ request r v, request.name = n.resourceName ∧ request.plaintext = p ∧ request.aad = a ∧
      Service.encrypt env ctx request ⟨st.store, w⟩ = .ok r ⟨st.store, v⟩ ∧
      server.receive env (post n "encrypt" body) st =
        (some (.ok (responseJson (.encrypted r))), ⟨st.store, v⟩) := by
  obtain ⟨plaintextCrc, aadCrc, hbody, hpc, hac⟩ := hm.decodeBody hb n.resourceName
  let request : EncryptRequest := ⟨n.resourceName, p, a, plaintextCrc, aadCrc⟩
  have hreq : st.store.findKey? request.name = some record := hr
  -- Neither of the two is longer than the body that holds them.
  have hw := Json.within_of_parse? hb
  have hmax : body.length ≤ Gcm.maxSize := Nat.le_trans hsize (by decide)
  have hp : p.length ≤ Gcm.maxSize := Nat.le_trans (hm.plaintext.length_le hw) hmax
  have ha : a.length ≤ Gcm.maxSize := Nat.le_trans (hm.aad.length_le hw) hmax
  obtain ⟨r, v, henc⟩ :=
    Service.exists_encrypt he ⟨st.store, w⟩ hst.wellFormed hst.generated hl hreq hp ha hpc hac
  have hperform : Service.perform env ctx (.encrypt request) ⟨st.store, w⟩ =
      .ok (.encrypted r) ⟨st.store, v⟩ := Service.perform_encrypt_eq_ok_iff.mpr henc
  have hgram := ResourceName.grammatical_cryptoKey_iff.mpr hn
  exact ⟨request, r, v, rfl, rfl, rfl, henc,
    receive_post hn (by decide) hsize (.encrypt hgram hbody) hc hperform⟩

/-- What a store answered once, a store that has grown from it decrypts. -/
theorem exists_receive_decrypt (he : env.Recovers) (st₀ : Service.State Store σ)
    {st₁ : Service.State Store σ} (hs : st₀.store.WellFormed)
    (hg : st₀.store.EveryVersion fun rec => env.Generates rec.material)
    {request : EncryptRequest} {r : EncryptResponse} {ctx' : Context}
    (h : Service.encrypt env ctx' request st₀ = .ok r st₁) (hn : n.Valid)
    (hname : request.name = n.resourceName) (hs' : st.store.WellFormed)
    (hgrows : st₀.store.Grows st.store)
    (hc : env.requestContext? server.root server.timeout st.world = some (ctx, w))
    (hl : env.Live ctx w) (hsize : body.length ≤ bodyLimit)
    (hb : Json.parse? body = some (.record members))
    (hm : DecryptMembers (encryptedMembers r) request.aad members) :
    ∃ response reply st',
      server.receive env (post n "decrypt" body) st = (some response, st') ∧
      response.Shows reply ∧
      PlaintextMembers request.plaintext (st.store.IsPrimary n.resourceName r.name) reply := by
  have hcrc := Service.ciphertextCrc_of_encrypt h
  obtain ⟨aadCrc, hbody, hac⟩ := hm.decodeBody hcrc hb n.resourceName
  obtain ⟨usedPrimary, u, hd, hused⟩ := Service.exists_decrypt_of_grows he ⟨st.store, w⟩ hs hs'
    hg hgrows h hl (Service.accepted_of_encrypt h (.inr rfl)) hac
  rw [hname] at hd hused
  have hgram := ResourceName.grammatical_cryptoKey_iff.mpr hn
  have hperform : Service.perform env ctx _ ⟨st.store, w⟩ = .ok (.decrypted _) ⟨st.store, u⟩ :=
    Service.perform_decrypt_eq_ok_iff.mpr hd
  have hreply := plaintextMembers_decryptedMembers
    ⟨request.plaintext, toWire (crc32c request.plaintext), usedPrimary⟩ rfl hused
  exact ⟨_, _, ⟨st.store, u⟩,
    receive_post hn (by decide) hsize (.decrypt hgram hbody) hc hperform, shows_decrypted _,
    hreply⟩

end Halves

/-- Bytes that are posted to the encryption of a crypto key, as base64 and with checksums that do
not contradict them, are answered with status 200; and after any further requests, the ciphertext
and its checksum, copied from that answer, are answered with the same bytes, their checksum, and
whether the version that sealed them is still the primary. Neither of the two bodies exceeds the
limit of the server. -/
theorem encrypt_decrypt_round_trip (he : env.UsesAesGcm random) (hst : Service.Reachable env st)
    {key : CryptoKey} (hk : st.store.getCryptoKey n.resourceName = .ok key)
    (hc : env.requestContext? server.root server.timeout st.world = some (ctx, w))
    (hl : env.Live ctx w) {p a body : Bytes} (hsize : body.length ≤ bodyLimit)
    {members : List (String × Json)} (hb : Json.parse? body = some (.record members))
    (hm : EncryptMembers p a members) :
    ∃ response answer version st',
      server.receive env (post n "encrypt" body) st = (some response, st') ∧
      response.Shows answer ∧ CiphertextMembers p version answer ∧
      ∀ turns ctx' w' body' members',
        env.requestContext? server.root server.timeout (server.after env st' turns).world =
          some (ctx', w') → env.Live ctx' w' → body'.length ≤ bodyLimit →
        Json.parse? body' = some (.record members') → DecryptMembers answer a members' →
        ∃ response' reply st'',
          server.receive env (post n "decrypt" body') (server.after env st' turns) =
            (some response', st'') ∧
          response'.Shows reply ∧
          PlaintextMembers p
            ((server.after env st' turns).store.IsPrimary n.resourceName version) reply := by
  have hn : n.Valid := valid_of_getCryptoKey hk
  obtain ⟨record, hr, -⟩ := Store.getCryptoKey_eq_ok_iff.mp hk
  obtain ⟨request, r, v, hname, rfl, rfl, henc, hreceive⟩ :=
    exists_receive_encrypt he hst hr hn hc hl hsize hb hm
  have hcrc := Service.ciphertextCrc_of_encrypt henc
  refine ⟨_, encryptedMembers r, r.name, ⟨st.store, v⟩, hreceive, shows_encrypted r,
    ciphertextMembers_encryptedMembers r hcrc (Service.length_ciphertext_le he henc), ?_⟩
  intro turns ctx' w' body' members' hc' hl' hsize' hb' hm'
  exact exists_receive_decrypt he.recovers ⟨st.store, w⟩ hst.wellFormed hst.generated henc hn
    hname (wellFormed_after ⟨st.store, v⟩ turns hst.wellFormed)
    (grows_after ⟨st.store, v⟩ turns) hc' hl' hsize' hb' hm'

end KeyManagement.Http

namespace KeyManagement.Sample

open Http Service

def sealingKey : CryptoKeyName := ⟨⟨⟨"p", "l"⟩, "r"⟩, "k"⟩

/-- A body without associated data, with all spellings of a checksum that is not checked. -/
def encryptBody : Bytes := Bytes.ofText
  "\x7b\"plaintext\":\"AQID\",\"plaintextCrc32c\":null,\"additionalAuthenticatedDataCrc32c\":0\x7d"

theorem encryptMembers_encryptBody : ∃ members,
    Json.parse? encryptBody = some (.record members) ∧ EncryptMembers [1, 2, 3] [] members := by
  refine ⟨[("plaintext", .text "AQID"), ("plaintextCrc32c", .null),
    ("additionalAuthenticatedDataCrc32c", .integer 0)], rfl, ?_⟩
  exact {
    plaintext := .inl rfl
    aad := .inr ⟨rfl, rfl⟩
    plaintextCrc := ⟨some .null, .tail _ (.head _), rfl⟩
    aadCrc := ⟨some (.integer 0), .tail _ (.tail _ (.head _)), rfl⟩ }

/-- The first crypto key gets another primary. -/
def rotationOverHttp : List (Turn (World Generator)) :=
  [.serve ⟨"POST", "/v1/projects/p/locations/l/keyRings/r/cryptoKeys/k/cryptoKeyVersions", []⟩,
    .serve (post sealingKey "updatePrimaryVersion"
      (Bytes.ofText "\x7b\"cryptoKeyVersionId\":\"2\"\x7d")),
    .elapse (world.advance 1)]

theorem sample_round_trip : ∃ response st' body' response' reply st'' version,
    server.receive env (post sealingKey "encrypt" encryptBody) created = (some response, st') ∧
    response.status = 200 ∧
    server.receive env (post sealingKey "decrypt" body') (server.after env st' rotationOverHttp) =
      (some response', st'') ∧
    response'.Shows reply ∧
    PlaintextMembers [1, 2, 3]
      ((server.after env st' rotationOverHttp).store.IsPrimary sealingKey.resourceName version)
      reply := by
  obtain ⟨random, he⟩ := World.usesAesGcm_random
  obtain ⟨record, hf⟩ := exists_findKey?_created (.inl rfl)
  obtain ⟨request, w, hc, hl⟩ := exists_requestContext
  obtain ⟨members, hb, hm⟩ := encryptMembers_encryptBody
  have hk : created.store.getCryptoKey sealingKey.resourceName = .ok record.key :=
    Store.getCryptoKey_eq_ok_iff.mpr ⟨record, hf, rfl⟩
  obtain ⟨response, answer, version, st', hrespond, hshows, hanswer, hdecrypt⟩ :=
    encrypt_decrypt_round_trip he reachable_created hk hc hl (by decide) hb hm
  obtain ⟨body', members', hsize', hb', hm'⟩ := hanswer.exists_copy
  have hlimit : 12 * (3 + maxOverhead) + 69 ≤ bodyLimit := by decide
  obtain ⟨response', reply, st'', hrespond', hshows', hreply⟩ :=
    hdecrypt rotationOverHttp request w body' members' hc hl (Nat.le_trans hsize' hlimit) hb' hm'
  exact ⟨response, st', body', response', reply, st'', version, hrespond, hshows.1, hrespond',
    hshows', hreply⟩

end KeyManagement.Sample
