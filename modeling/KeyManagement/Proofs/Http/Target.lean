import KeyManagement.Proofs.Envelope
import KeyManagement.Proofs.Http.Routing
import KeyManagement.Proofs.Text.Utf8

/-! # Targets that stand for themselves

Segments without the marks that a target is cut at, and without percent signs, are read as they
are written. Valid identifiers are such segments, and so the name of a resource is the path
that leads to it.
-/

namespace KeyManagement

namespace Bytes

theorem percent_not_mem_ofText {s : String} (h : '%' ∉ s.toList) : 0x25 ∉ ofText s := by
  rw [ofText_eq_flatMap, List.mem_flatMap]
  rintro ⟨c, hc, hb⟩
  have hv : c.val.toNat = 0x25 := eq_of_mem_utf8EncodeChar (by decide) hb
  obtain rfl : c = '%' := Char.ext (UInt32.toNat_inj.mp hv)
  exact h hc

end Bytes

namespace Percent

theorem decode_of_not_mem {bytes : Bytes} (h : 0x25 ∉ bytes) : decode bytes = bytes := by
  fun_induction decode bytes with
  | case1 => rfl
  | case2 b hi lo rest x y hlo hhi hb ih => exact absurd (by simp_all) h
  | case3 b hi lo rest hb ih => rw [ih (List.not_mem_of_not_mem_cons h)]
  | case4 b rest hb ih => rw [ih (List.not_mem_of_not_mem_cons h)]

theorem decodeSegment?_of_not_mem {s : String} (h : '%' ∉ s.toList) :
    decodeSegment? s = some s := by
  rw [decodeSegment?, decode_of_not_mem (Bytes.percent_not_mem_ofText h), Bytes.toText?_ofText]

end Percent

namespace Http

/-- A text that stands for itself in the place of a segment. -/
def Plain (s : String) : Prop := ∀ c ∈ s.toList, c ∉ ['/', '?', '#', '%']

instance (s : String) : Decidable (Plain s) :=
  List.decidableBAll (fun c => c ∉ ['/', '?', '#', '%']) s.toList

theorem Plain.append {s t : String} (hs : Plain s) (ht : Plain t) : Plain (s ++ t) := by
  intro c hc
  rw [String.toList_append, List.mem_append] at hc
  exact hc.elim (hs c) (ht c)

theorem Plain.not_mem {s : String} (h : Plain s) {c : Char} (hc : c ∈ ['/', '?', '#', '%']) :
    c ∉ s.toList :=
  fun hm => h c hm hc

theorem plain_of_isId {s : String} (h : isId s = true) : Plain s := by
  intro c hc hm
  simp only [isId, Bool.and_eq_true, List.all_eq_true] at h
  have hi := h.1.2 c hc
  simp only [List.mem_cons, List.not_mem_nil, or_false] at hm
  rcases hm with rfl | rfl | rfl | rfl <;> exact absurd hi (by decide)

theorem eq_slash_or_mem_of_mem_joined {parts : List String} {c : Char} (h : c ∈ joined parts) :
    c = '/' ∨ ∃ p ∈ parts, c ∈ p.toList := by
  induction parts with
  | nil => nomatch h
  | cons p parts ih =>
    cases parts with
    | nil => exact .inr ⟨p, List.mem_singleton_self p, joined_singleton p ▸ h⟩
    | cons q parts =>
      rw [joined_cons_cons, List.mem_append, List.mem_cons] at h
      rcases h with h | rfl | h
      · exact .inr ⟨p, List.mem_cons_self, h⟩
      · exact .inl rfl
      · rcases ih h with h | ⟨r, hr, h⟩
        · exact .inl h
        · exact .inr ⟨r, List.mem_cons_of_mem p hr, h⟩

theorem mark_not_mem_joined {parts : List String} (hp : ∀ p ∈ parts, Plain p) {c : Char}
    (hc : c ∈ ['?', '#', '%']) : c ∉ joined parts := by
  intro h
  rcases eq_slash_or_mem_of_mem_joined h with rfl | ⟨p, hp', h⟩
  · exact absurd hc (by decide)
  · exact (hp p hp').not_mem (List.mem_cons_of_mem _ hc) h

theorem Target.path_parse {target : String} (hh : target.toList.head? = some '/')
    (hq : '?' ∉ target.toList) (hf : '#' ∉ target.toList) :
    (Target.parse target).path = target := by
  have htake : ∀ mark : Char, mark ∉ target.toList →
      target.toList.takeWhile (· ≠ mark) = target.toList := by
    intro mark hm
    refine List.takeWhile_eq_self_iff.mpr fun c hc => decide_eq_true ?_
    rintro rfl
    exact hm hc
  simp only [Target.parse, htake _ hf, hh, decide_true, Bool.true_or, if_true,
    Target.ofPathAndQuery, htake _ hq, String.ofList_toList]

section Methods

variable {n : CryptoKeyName} {verb : String}

/-- The path of a custom method of a crypto key. -/
def methodPath (n : CryptoKeyName) (verb : String) : String :=
  "/v1/" ++ n.resourceName ++ ":" ++ verb

/-- The route of a custom method: its last parameter is the identifier with the verb. -/
def methodRoute (n : CryptoKeyName) (verb : String) : Route :=
  .cryptoKey (n.parent.key (n.cryptoKey ++ ":" ++ verb))

def methodSegments (n : CryptoKeyName) (verb : String) : List String :=
  ["", "v1", "projects", n.parent.parent.project, "locations", n.parent.parent.location,
    "keyRings", n.parent.keyRing, "cryptoKeys", n.cryptoKey ++ ":" ++ verb]

theorem toList_methodPath (n : CryptoKeyName) (verb : String) :
    (methodPath n verb).toList = joined (methodSegments n verb) := by
  simp [methodPath, methodSegments, n.toList_resourceName, CryptoKeyName.path, KeyRingName.path,
    LocationName.path, joined_cons_cons]

theorem plain_method (hn : n.Valid) (hv : Plain verb) : Plain (n.cryptoKey ++ ":" ++ verb) :=
  ((plain_of_isId hn.2).append (by decide)).append hv

theorem plain_methodSegments (hn : n.Valid) (hv : Plain verb) :
    ∀ p ∈ methodSegments n verb, Plain p := by
  simp only [methodSegments, List.forall_mem_cons]
  exact ⟨by decide, by decide, by decide, plain_of_isId hn.1.1.1, by decide,
    plain_of_isId hn.1.1.2, by decide, plain_of_isId hn.1.2, by decide, plain_method hn hv, nofun⟩

theorem path_parse_methodPath (hn : n.Valid) (hv : Plain verb) :
    (Target.parse (methodPath n verb)).path = methodPath n verb := by
  have hmark : ∀ c ∈ ['?', '#', '%'], c ∉ (methodPath n verb).toList := by
    intro c hc
    rw [toList_methodPath]
    exact mark_not_mem_joined (plain_methodSegments hn hv) hc
  refine Target.path_parse ?_ (hmark _ (by decide)) (hmark _ (by decide))
  rw [toList_methodPath]
  rfl

theorem match?_methodPath (hn : n.Valid) (hv : Plain verb) :
    Route.match? (methodPath n verb) = some (methodRoute n verb) := by
  have hs : segments (methodPath n verb) = methodSegments n verb := by
    refine (segments_eq_iff (by simp [methodSegments]) ?_ (toList_methodPath n verb)).mpr rfl
    exact fun p hp => (plain_methodSegments hn hv p hp).not_mem (by decide)
  rw [segments] at hs
  have hk : (n.cryptoKey ++ ":" ++ verb).isEmpty = false := by simp
  simp [Route.match?, hs, methodSegments, Route.below?, Route.nonempty, hk, methodRoute,
    LocationName.ring]

theorem decodeParameter_of_plain {name raw : String} (h : Plain raw) :
    Route.decodeParameter name raw = .ok raw := by
  rw [Route.decodeParameter, Percent.decodeSegment?_of_not_mem (h.not_mem (by decide))]

theorem decode_methodRoute (hn : n.Valid) (hv : Plain verb) :
    (methodRoute n verb).decode = .ok (methodRoute n verb) := by
  simp only [methodRoute, Route.decode, KeyRingName.key, Route.decodeCryptoKey,
    Route.decodeKeyRing, Route.decodeLocation,
    decodeParameter_of_plain (plain_of_isId hn.1.1.1),
    decodeParameter_of_plain (plain_of_isId hn.1.1.2),
    decodeParameter_of_plain (plain_of_isId hn.1.2), decodeParameter_of_plain (plain_method hn hv)]
  rfl

end Methods

end Http

end KeyManagement
