import KeyManagement.Proofs.Store.Command
import KeyManagement.Proofs.Text.Utf8

/-! # Range scans

The key rings of a parent are read from the common prefix of their names on, up to the first
name that has it not. In the order of their bytes the names with a prefix follow each other, and
none of them precedes the prefix, so that the scan finds what a search through all key rings does.
-/

namespace KeyManagement

open Bytes (ofText)

namespace Keyed

variable {α : Type}

/-- The values from the first key that does not precede some bytes, up to the first key that does
not begin with them. -/
def scanBytes (m : Keyed α) (start : Bytes) : List α :=
  ((m.entries.dropWhile fun entry => ofText entry.1 < start).takeWhile
    fun entry => start.isPrefixOf (ofText entry.1)).map (·.2)

theorem isPrefixOf_ofText (s t : String) :
    (ofText s).isPrefixOf (ofText t) = s.toList.isPrefixOf t.toList := by
  rw [Bool.eq_iff_iff, List.isPrefixOf_iff_prefix, List.isPrefixOf_iff_prefix,
    Bytes.ofText_isPrefix_iff]

theorem scanBytes_ofText (m : Keyed α) (start : String) :
    m.scanBytes (ofText start) = m.scan start := by
  simp only [scanBytes, scan, Bytes.ofText_lt_iff, isPrefixOf_ofText]

end Keyed

namespace Store

variable {s : Store}

/-- Every key ring is filed under the name that it carries. -/
def RingsFiled (s : Store) : Prop :=
  ∀ name ring, s.findRing? name = some ring → ring.name = name

/-- All key rings, in the order in which they are filed. -/
def keyRings (s : Store) : List KeyRing := s.rings.values.map (·.ring)

theorem ringsFiled_after (commands : List Command) : (after commands).RingsFiled := by
  refine after_induction (Q := fun _ => True) (fun name ring h => ?_)
    (fun s s' c _ ih h name ring hr => ?_) (fun _ _ => trivial)
  · contradiction
  · cases c with
    | createKeyRing new =>
      rw [findRing?_createKeyRing h] at hr
      split at hr
      · next hn =>
        cases hr
        exact hn.symm
      · exact ih name ring hr
    | createCryptoKey parent key primary material =>
      exact ih name ring (findRing?_createCryptoKey h name ▸ hr)
    | createVersion key version material =>
      exact ih name ring (findRing?_createVersion h name ▸ hr)
    | createNextVersion key template material now =>
      obtain ⟨version, h⟩ := Command.perform_createNextVersion_iff.mp h
      obtain ⟨-, -, -, -, -, h⟩ := createNextVersion_eq_ok_iff.mp h
      exact ih name ring (findRing?_createVersion h name ▸ hr)
    | setPrimary key version =>
      obtain ⟨updated, h⟩ := Command.perform_setPrimary_iff.mp h
      exact ih name ring (findRing?_setPrimary h name ▸ hr)

section Filed

variable (h : s.RingsFiled)

include h

theorem RingsFiled.name_eq {entry : String × RingRecord} (he : entry ∈ s.rings.entries) :
    entry.2.ring.name = entry.1 :=
  h entry.1 _ (Option.map_eq_some_iff.mpr ⟨entry.2, Keyed.mem_entries_iff.mp he, rfl⟩)

theorem RingsFiled.ascending_keyRings :
    s.keyRings.Pairwise fun a b => ofText a.name < ofText b.name := by
  simp only [keyRings, Keyed.values, List.pairwise_map]
  refine s.rings.ascending.imp_of_mem fun ha hb hlt => ?_
  rw [h.name_eq ha, h.name_eq hb]
  exact Bytes.ofText_lt hlt

theorem RingsFiled.mem_keyRings_iff {ring : KeyRing} :
    ring ∈ s.keyRings ↔ s.getKeyRing ring.name = .ok ring := by
  simp only [keyRings, List.mem_map, Keyed.mem_values_iff, getKeyRing_eq_ok_iff]
  constructor
  · rintro ⟨record, ⟨name, hf⟩, rfl⟩
    have hr : s.findRing? name = some record.ring := Option.map_eq_some_iff.mpr ⟨record, hf, rfl⟩
    rwa [h name _ hr]
  · intro hr
    obtain ⟨record, hf, he⟩ := Option.map_eq_some_iff.mp hr
    exact ⟨record, ⟨_, hf⟩, he⟩

theorem RingsFiled.listKeyRings_eq (parent : String) :
    s.listKeyRings parent = s.keyRings.filter fun ring =>
      (ofText (parent ++ "/keyRings/")).isPrefixOf (ofText ring.name) := by
  simp only [listKeyRings, Keyed.scan_eq_filter, keyRings, Keyed.values, List.filter_map,
    List.map_map, Keyed.isPrefixOf_ofText]
  refine congrArg _ (List.filter_congr fun entry he => ?_)
  simp only [Function.comp_apply, h.name_eq he]

end Filed

/-- The scan that lists the key rings of a parent finds those that a search through all key rings
finds, in the order of their bytes, whatever names and parents are. -/
theorem range_scan_eq_filter (h : s.RingsFiled) (parent : String) :
    let start := ofText (parent ++ "/keyRings/")
    s.listKeyRings parent = (s.rings.scanBytes start).map (·.ring) ∧
    s.listKeyRings parent = s.keyRings.filter (fun ring => start.isPrefixOf (ofText ring.name)) ∧
    (s.listKeyRings parent).Pairwise (fun a b => ofText a.name < ofText b.name) ∧
    ∀ ring, ring ∈ s.listKeyRings parent ↔
      s.getKeyRing ring.name = .ok ring ∧ start <+: ofText ring.name := by
  intro start
  refine ⟨?_, h.listKeyRings_eq parent, ?_, fun ring => ?_⟩
  · rw [Keyed.scanBytes_ofText, listKeyRings]
  · rw [h.listKeyRings_eq]
    exact h.ascending_keyRings.filter _
  · rw [h.listKeyRings_eq, List.mem_filter, h.mem_keyRings_iff, List.isPrefixOf_iff_prefix]

end Store

end KeyManagement

namespace KeyManagement.Sample

open Store

def pushLeast (s : String) : String := s.push (Char.ofNat 0)

def pushGreatest (s : String) : String := s.push (Char.ofNat 0x10ffff)

/-- Key rings whose names are next to the range of a parent, on either side, or at its ends. -/
def neighbours : List Command :=
  [pushGreatest "p/keyRings/", "p/keyRings0", "p/keyRings/", pushGreatest "p/keyRings.",
    "p/keyRings", pushLeast "p/keyRings/"].map fun name => .createKeyRing ⟨name, instant⟩

theorem sample_range_scan :
    (after neighbours).RingsFiled ∧
    ((after neighbours).listKeyRings "p").map (·.name) =
      ["p/keyRings/", pushLeast "p/keyRings/", pushGreatest "p/keyRings/"] ∧
    (after neighbours).listKeyRings "p" = (after neighbours).keyRings.filter
      fun ring => (Bytes.ofText ("p" ++ "/keyRings/")).isPrefixOf (Bytes.ofText ring.name) :=
  ⟨ringsFiled_after _, by decide +kernel, (range_scan_eq_filter (ringsFiled_after _) "p").2.1⟩

end KeyManagement.Sample
