import KeyManagement.Json.Reader
import KeyManagement.Json.Record
import KeyManagement.Proofs.Envelope
import KeyManagement.Proofs.Json.Lexer
import KeyManagement.Proofs.Text.Utf8

/-! # Sizes of what is read

A text in a value is no longer than the bytes that the value is read from: an escaped unit takes
six bytes, and is never encoded as more.
-/

namespace KeyManagement.Json

/-- No text in a value has more than the given number of bytes. Names of members do not count. -/
inductive Within (size : Nat) : Json → Prop
  | null : Within size .null
  | bool (b : Bool) : Within size (.bool b)
  | integer (n : Int) : Within size (.integer n)
  | real (literal : String) : Within size (.real literal)
  | string {text : Option String} (h : ∀ s ∈ text, (Bytes.ofText s).length ≤ size) :
      Within size (.string text)
  | array {items : List Json} (h : ∀ v ∈ items, Within size v) : Within size (.array items)
  | object {members : List (Option String × Json)} (h : ∀ m ∈ members, Within size m.2) :
      Within size (.object members)

section Lexer

variable {size rest : Nat} {tokens : List Token} {l l' : Lexer} {v : Json}

/-- The bytes that a piece takes in a string. -/
def Piece.weight : Piece → Nat
  | .byte _ => 1
  | .unit _ => 6

def weights : List Piece → Nat
  | [] => 0
  | piece :: pieces => piece.weight + weights pieces

theorem weights_append (pieces pieces' : List Piece) :
    weights (pieces ++ pieces') = weights pieces + weights pieces' := by
  induction pieces with
  | nil => simp [weights]
  | cons piece pieces ih => rw [List.cons_append, weights, ih, weights, Nat.add_assoc]

theorem weights_reverse (pieces : List Piece) : weights pieces.reverse = weights pieces := by
  induction pieces with
  | nil => rfl
  | cons piece pieces ih =>
    rw [List.reverse_cons, weights_append, ih, Nat.add_comm, weights]
    rfl

theorem Piece.length_encode_le {pieces : List Piece} {bytes : Bytes}
    (h : Piece.encode pieces = some bytes) : bytes.length ≤ weights pieces := by
  fun_induction Piece.encode pieces generalizing bytes with
  | case1 =>
    cases h
    exact Nat.le_refl 0
  | case2 b pieces ih =>
    obtain ⟨tail, ht, rfl⟩ := Option.map_eq_some_iff.mp h
    have := ih ht
    simp only [weights, Piece.weight, List.length_cons]
    omega
  | case3 high hhigh low pieces hlow ih =>
    obtain ⟨tail, ht, rfl⟩ := Option.map_eq_some_iff.mp h
    have := ih ht
    have := Bytes.length_ofText_toString_le
      (Char.ofNat (0x10000 + (high - 0xd800) * 0x400 + (low - 0xdc00)))
    simp only [weights, Piece.weight, List.length_append]
    omega
  | case4 | case5 | case6 => contradiction
  | case7 high pieces hhigh hlow ih =>
    obtain ⟨tail, ht, rfl⟩ := Option.map_eq_some_iff.mp h
    have := ih ht
    have := Bytes.length_ofText_toString_le (Char.ofNat high)
    simp only [weights, Piece.weight, List.length_append]
    omega

theorem within_of_pieces {pieces : List Piece} (h : weights pieces ≤ size) :
    Within size (.string (Piece.text? pieces)) := by
  refine .string fun s hs => ?_
  obtain ⟨bytes, hb, ht⟩ := Option.bind_eq_some_iff.mp hs
  rw [Bytes.toText?_eq_some_iff.mp ht]
  exact Nat.le_trans (Piece.length_encode_le hb) h

/-- The bytes of a string that is still open. -/
def LexerMode.pending : LexerMode → Nat
  | .inString pieces => weights pieces
  | .afterBackslash pieces => weights pieces + 1
  | .inUnit pieces _ digits => weights pieces + 2 + digits
  | _ => 0

/-- What has been read fits into a number of bytes, of which some are still to come. -/
structure Lexer.Fits (size rest : Nat) (l : Lexer) : Prop where
  pending : l.mode.pending + rest ≤ size
  tokens : ∀ v, .scalar v ∈ l.reversed → Within size v

theorem within_of_number? {literal : List Char} (h : Lexer.number? literal = some v) :
    Within size v := by
  simp only [Lexer.number?] at h
  split at h <;> split_ifs at h <;> cases h <;> constructor

theorem within_of_word? {letters : List Char} (h : Lexer.word? letters = some v) :
    Within size v := by
  simp only [Lexer.word?] at h
  split_ifs at h <;> cases h <;> constructor

theorem within_cons {t : Token} (ht : ∀ v, t = .scalar v → Within size v)
    (h : ∀ v, .scalar v ∈ tokens → Within size v) :
    ∀ v, .scalar v ∈ t :: tokens → Within size v := by
  intro v hv
  rcases List.mem_cons.mp hv with hv | hv
  · exact ht v hv.symm
  · exact h v hv

theorem Lexer.fits_of_pending_eq_zero {mode : LexerMode} (hm : mode.pending = 0)
    (hr : rest ≤ size) (ht : ∀ v, .scalar v ∈ tokens → Within size v) :
    (⟨mode, tokens⟩ : Lexer).Fits size rest := by
  refine ⟨?_, ht⟩
  rw [hm, Nat.zero_add]
  exact hr

theorem Lexer.fits_start {b : UInt8} (hr : rest ≤ size)
    (ht : ∀ v, .scalar v ∈ tokens → Within size v) (h : Lexer.start tokens b = some l) :
    l.Fits size rest := by
  unfold Lexer.start at h
  split at h
  case h_1 | h_2 | h_3 | h_4 | h_11 =>
    cases h
    exact fits_of_pending_eq_zero rfl hr ht
  case h_5 | h_6 | h_7 | h_8 | h_9 | h_10 =>
    cases h
    exact fits_of_pending_eq_zero rfl hr (within_cons nofun ht)
  case h_12 =>
    split_ifs at h
    · cases h
      exact fits_of_pending_eq_zero rfl hr ht
    · cases h
      exact fits_of_pending_eq_zero rfl hr ht

theorem Lexer.Fits.settle (hl : l.Fits size rest) (h : l.settle = some l') :
    l'.Fits size rest := by
  have hr : rest ≤ size := Nat.le_trans (Nat.le_add_left _ _) hl.pending
  obtain ⟨mode, reversed⟩ := l
  cases mode with
  | between =>
    cases h
    exact hl
  | inNumber literal =>
    obtain ⟨v, hv, rfl⟩ := Option.map_eq_some_iff.mp h
    refine fits_of_pending_eq_zero rfl hr (within_cons ?_ hl.tokens)
    rintro _ ⟨⟩
    exact within_of_number? hv
  | inWord letters =>
    obtain ⟨v, hv, rfl⟩ := Option.map_eq_some_iff.mp h
    refine fits_of_pending_eq_zero rfl hr (within_cons ?_ hl.tokens)
    rintro _ ⟨⟩
    exact within_of_word? hv
  | inString pieces => nomatch h
  | afterBackslash pieces => nomatch h
  | inUnit pieces value digits => nomatch h

theorem Lexer.Fits.step {b : UInt8} (hl : l.Fits size (rest + 1)) (h : l.step b = some l') :
    l'.Fits size rest := by
  have hr : rest ≤ size := by
    have := hl.pending
    omega
  obtain ⟨mode, reversed⟩ := l
  have hpending := hl.pending
  have ht := hl.tokens
  cases mode with
  | between => exact fits_start hr ht h
  | inNumber literal =>
    simp only [Lexer.step] at h
    split_ifs at h
    · cases h
      exact fits_of_pending_eq_zero rfl hr ht
    · obtain ⟨l'', hs, h⟩ := Option.bind_eq_some_iff.mp h
      exact fits_start hr (hl.settle hs).tokens h
  | inWord letters =>
    simp only [Lexer.step] at h
    split_ifs at h
    · cases h
      exact fits_of_pending_eq_zero rfl hr ht
    · obtain ⟨l'', hs, h⟩ := Option.bind_eq_some_iff.mp h
      exact fits_start hr (hl.settle hs).tokens h
  | inString pieces =>
    simp only [LexerMode.pending] at hpending
    simp only [Lexer.step] at h
    split_ifs at h
    · cases h
      refine fits_of_pending_eq_zero rfl hr (within_cons ?_ ht)
      rintro _ ⟨⟩
      refine within_of_pieces ?_
      rw [weights_reverse]
      omega
    · cases h
      exact ⟨by simp only [LexerMode.pending]; omega, ht⟩
    · cases h
      exact ⟨by simp only [LexerMode.pending, weights, Piece.weight]; omega, ht⟩
  | afterBackslash pieces =>
    simp only [LexerMode.pending] at hpending
    simp only [Lexer.step] at h
    split_ifs at h
    · cases h
      exact ⟨by simp only [LexerMode.pending]; omega, ht⟩
    · obtain ⟨b', -, rfl⟩ := Option.map_eq_some_iff.mp h
      exact ⟨by simp only [LexerMode.pending, weights, Piece.weight]; omega, ht⟩
  | inUnit pieces value digits =>
    simp only [LexerMode.pending] at hpending
    obtain ⟨d, -, h⟩ := Option.map_eq_some_iff.mp h
    split_ifs at h
    · cases h
      exact ⟨by simp only [LexerMode.pending, weights, Piece.weight]; omega, ht⟩
    · cases h
      exact ⟨by simp only [LexerMode.pending]; omega, ht⟩

theorem Lexer.Fits.foldlM {bytes : Bytes} (hl : l.Fits size bytes.length)
    (h : bytes.foldlM Lexer.step l = some l') : l'.Fits size 0 := by
  induction bytes generalizing l with
  | nil =>
    cases h
    exact hl
  | cons b bytes ih =>
    rw [List.foldlM_cons] at h
    obtain ⟨l'', hs, h⟩ := Option.bind_eq_some_iff.mp h
    exact ih (hl.step hs) h

theorem within_of_tokens? {text : Bytes} (h : tokens? text = some tokens)
    (ht : .scalar v ∈ tokens) : Within text.length v := by
  obtain ⟨l, hl, h⟩ := Option.bind_eq_some_iff.mp h
  obtain ⟨l', hs, h⟩ := Option.bind_eq_some_iff.mp h
  cases h
  have hfits : Lexer.Fits text.length text.length {} :=
    Lexer.fits_of_pending_eq_zero rfl (Nat.le_refl _) nofun
  exact ((hfits.foldlM hl).settle hs).tokens v (List.mem_reverse.mp ht)

end Lexer

section Builder

variable {P : Json → Prop} {b b' : Builder} {t : Token} {tokens : List Token} {v : Json}

def Frame.values : Frame → List Json
  | .items before => before
  | .member before _ => before.map Prod.snd

def Expected.values : Expected → List Json
  | .separator v => [v]
  | .name before | .colon before _ => before.map Prod.snd
  | _ => []

/-- The values that are complete. -/
def Builder.values (b : Builder) : List Json := b.expected.values ++ b.stack.flatMap Frame.values

/-- A property that arrays and objects have as soon as all that is in them has it. -/
structure Inherited (P : Json → Prop) : Prop where
  array : ∀ {items : List Json}, (∀ v ∈ items, P v) → P (.array items)
  object : ∀ {members : List (Option String × Json)}, (∀ m ∈ members, P m.2) → P (.object members)

theorem Inherited.close {stack : List Frame} {array : Bool} (hP : Inherited P) (hv : P v)
    (hs : ∀ u ∈ stack.flatMap Frame.values, P u) (h : Builder.close stack v array = some b) :
    ∀ u ∈ b.values, P u := by
  unfold Builder.close at h
  split at h
  · next before stack =>
    cases h
    obtain ⟨hbefore, hstack⟩ := List.forall_mem_append.mp hs
    have hitems : ∀ u ∈ (v :: before).reverse, P u := fun u hu =>
      List.forall_mem_cons.mpr ⟨hv, hbefore⟩ u (List.mem_reverse.mp hu)
    exact List.forall_mem_cons.mpr ⟨hP.array hitems, hstack⟩
  · next before name stack =>
    cases h
    obtain ⟨hbefore, hstack⟩ := List.forall_mem_append.mp hs
    have hbefore : ∀ m ∈ before, P m.2 := List.forall_mem_map.mp hbefore
    have hmembers : ∀ m ∈ ((name, v) :: before).reverse, P m.2 := fun m hm =>
      (List.forall_mem_cons (p := fun m => P m.2)).mpr ⟨hv, hbefore⟩ m (List.mem_reverse.mp hm)
    exact List.forall_mem_cons.mpr ⟨hP.object hmembers, hstack⟩
  · contradiction

theorem Inherited.step (hP : Inherited P) (hb : ∀ v ∈ b.values, P v)
    (ht : ∀ v, t = .scalar v → P v) (h : b.step t = some b') : ∀ v ∈ b'.values, P v := by
  obtain ⟨expected, stack⟩ := b
  have hstack : ∀ v ∈ stack.flatMap Frame.values, P v := (List.forall_mem_append.mp hb).2
  unfold Builder.step at h
  -- The cases come as `Builder.step` lists them.
  split at h
  case h_1 v he | h_2 v he =>
    cases h
    exact List.forall_mem_cons.mpr ⟨ht v rfl, hstack⟩
  case h_3 he | h_4 he | h_5 he | h_6 he =>
    cases h
    exact hstack
  case h_7 he =>
    cases h
    refine List.forall_mem_cons.mpr ⟨hP.array nofun, ?_⟩
    cases stack with
    | nil => exact hstack
    | cons frame stack => exact (List.forall_mem_append.mp hstack).2
  case h_8 name he =>
    cases h
    exact hstack
  case h_9 he =>
    cases h
    exact List.forall_mem_cons.mpr ⟨hP.object nofun, hstack⟩
  case h_10 before name he | h_11 before name he =>
    cases he
    cases h
    exact hb
  case h_12 v he =>
    cases he
    cases stack with
    | nil => contradiction
    | cons frame stack =>
      cases frame with
      | items before =>
        cases h
        exact hb
      | member before name =>
        cases h
        exact hb
  case h_13 v he | h_14 v he =>
    cases he
    exact hP.close (hb v List.mem_cons_self) hstack h
  case h_15 => contradiction

theorem Inherited.foldlM (hP : Inherited P) (ht : ∀ v, .scalar v ∈ tokens → P v)
    (hb : ∀ v ∈ b.values, P v) (h : tokens.foldlM Builder.step b = some b') :
    ∀ v ∈ b'.values, P v := by
  induction tokens generalizing b with
  | nil =>
    cases h
    exact hb
  | cons t tokens ih =>
    rw [List.foldlM_cons] at h
    obtain ⟨b'', hs, h⟩ := Option.bind_eq_some_iff.mp h
    have hstep := hP.step hb (fun v hv => ht v (hv ▸ List.mem_cons_self)) hs
    exact ih (fun v hv => ht v (List.mem_cons_of_mem t hv)) hstep h

theorem Inherited.ofTokens? (hP : Inherited P) (ht : ∀ v, .scalar v ∈ tokens → P v)
    (h : ofTokens? tokens = some v) : P v := by
  obtain ⟨b, hb, h⟩ := Option.bind_eq_some_iff.mp h
  split at h
  · cases h
    exact hP.foldlM (b := {}) ht nofun hb v List.mem_cons_self
  · contradiction

end Builder

theorem inherited_within (size : Nat) : Inherited (Within size) := ⟨.array, .object⟩

/-- No text in what is read is longer than all that is read. -/
theorem within_of_parse? {text : Bytes} {v : Json} (h : parse? text = some v) :
    Within text.length v := by
  obtain ⟨tokens, ht, h⟩ := Option.bind_eq_some_iff.mp h
  exact (inherited_within text.length).ofTokens? (fun u hu => within_of_tokens? ht hu) h

theorem mem_of_member? {members : List (String × Json)} {name : String} {v : Json}
    (h : member? members name = some (some v)) : (name, v) ∈ members := by
  unfold member? at h
  split at h
  · cases h
  · next m hf =>
    cases h
    have hm : m ∈ members.filter fun m => m.1 == name := hf ▸ List.mem_singleton_self m
    obtain ⟨hm, hname⟩ := List.mem_filter.mp hm
    rwa [← eq_of_beq hname]
  · contradiction

theorem Within.member {size : Nat} {members : List (String × Json)} {name : String} {v : Json}
    (h : Within size (record members)) (hm : member? members name = some (some v)) :
    Within size v := by
  cases h with
  | object h => exact h _ (List.mem_map_of_mem (mem_of_member? hm))

theorem Within.length_le {size : Nat} {s : String} (h : Within size (.text s)) :
    (Bytes.ofText s).length ≤ size := by
  cases h with
  | string h => exact h s rfl

section Writing

theorem length_ofText_escape_le (c : Char) : (Bytes.ofText (escape c)).length ≤ 6 := by
  by_cases hc : c.toNat < 0x20
  · have hcontrol : ∀ n < 0x20, (Bytes.ofText (escape (Char.ofNat n))).length ≤ 6 := by decide
    have h := hcontrol c.toNat hc
    rwa [Char.ofNat_toNat] at h
  · unfold escape
    split
    case h_1 | h_2 | h_3 | h_4 | h_5 | h_6 | h_7 => decide
    case h_8 =>
      rw [if_neg hc]
      exact Nat.le_trans (Bytes.length_ofText_toString_le c) (by decide)

theorem length_ofText_renderText_le (s : String) :
    (Bytes.ofText (renderText s)).length ≤ 6 * s.toList.length + 2 := by
  have hflat : ∀ cs : List Char,
      (cs.flatMap fun c => Bytes.ofText (escape c)).length ≤ 6 * cs.length := by
    intro cs
    induction cs with
    | nil => exact Nat.le_refl 0
    | cons c cs ih =>
      have hc := length_ofText_escape_le c
      rw [List.flatMap_cons, List.length_append, List.length_cons]
      omega
  have hquote : (Bytes.ofText "\"").length = 1 := rfl
  have hs := hflat s.toList
  simp only [renderText, Bytes.ofText_append, ofText_join, List.flatMap_map, List.length_append,
    hquote]
  omega

end Writing

end KeyManagement.Json
