import KeyManagement.Address.Reader
import Mathlib.Data.List.TakeDrop

/-! # Texts of socket addresses

Each reader takes what it reads off the front and leaves the rest of the text as it is. So what is
skipped stands in the text: the colon in front of the port of an IPv4 address, or the bracket in
front of an IPv6 address.
-/

namespace KeyManagement

namespace Address

variable {s rest : List Char} {c : Char}

theorem skip?_eq_some_iff : skip? c s = some rest ↔ s = c :: rest := by
  cases s with
  | nil => simp [skip?]
  | cons first s => simp [skip?]

theorem numberBelow?_suffix {limit n : Nat} (h : numberBelow? limit s = some (n, rest)) :
    rest <:+ s := by
  simp only [numberBelow?, List.span_eq_takeWhile_dropWhile, Option.ite_none_right_eq_some,
    Option.some.injEq, Prod.mk.injEq] at h
  obtain ⟨-, -, rfl⟩ := h
  exact List.dropWhile_suffix _

theorem octet?_suffix {n : UInt8} (h : octet? s = some (n, rest)) : rest <:+ s := by
  simp only [octet?, Option.bind_eq_bind, Option.bind_eq_some_iff, Prod.exists,
    Option.ite_none_right_eq_some, Option.some.injEq, Prod.mk.injEq] at h
  obtain ⟨m, rest', hm, -, -, rfl⟩ := h
  exact numberBelow?_suffix hm

theorem suffix_of_dot_octet? {s' : List Char} {n : UInt8} (hs : skip? '.' s = some s')
    (h : octet? s' = some (n, rest)) : rest <:+ s := by
  rw [skip?_eq_some_iff.mp hs]
  exact (octet?_suffix h).trans (List.suffix_cons '.' s')

end Address

open Address

theorem Ipv4.read?_suffix {s rest : List Char} {ip : Ipv4} (h : Ipv4.read? s = some (ip, rest)) :
    rest <:+ s := by
  simp only [Ipv4.read?, Option.bind_eq_bind, Option.bind_eq_some_iff, Prod.exists,
    Option.pure_def, Option.some.injEq, Prod.mk.injEq] at h
  obtain ⟨a, s₁, ha, s₁', h₁, b, s₂, hb, s₂', h₂, c, s₃, hc, s₃', h₃, d, s₄, hd, -, rfl⟩ := h
  exact ((suffix_of_dot_octet? h₃ hd).trans (suffix_of_dot_octet? h₂ hc)).trans
    ((suffix_of_dot_octet? h₁ hb).trans (octet?_suffix ha))

namespace SocketAddress

variable {s rest : List Char} {address : SocketAddress}

theorem colon_mem_of_readV4? (h : readV4? s = some (address, rest)) : ':' ∈ s := by
  simp only [readV4?, readPort?, Option.bind_eq_bind, Option.bind_eq_some_iff, Prod.exists] at h
  obtain ⟨ip, s', hip, -, -, ⟨s'', hs, -⟩, -⟩ := h
  rw [skip?_eq_some_iff] at hs
  exact (Ipv4.read?_suffix hip).mem (hs ▸ List.mem_cons_self)

theorem bracket_mem_of_readV6? (h : readV6? s = some (address, rest)) : '[' ∈ s := by
  simp only [readV6?, Option.bind_eq_bind, Option.bind_eq_some_iff] at h
  obtain ⟨s', hs, -⟩ := h
  rw [skip?_eq_some_iff.mp hs]
  exact List.mem_cons_self

theorem mark_mem_of_parse? {text : String} (h : parse? text = some address) :
    ':' ∈ text.toList ∨ '[' ∈ text.toList := by
  unfold parse? at h
  split at h
  · next found hread =>
    rw [Option.orElse_eq_orElse, Option.orElse_eq_or, Option.or_eq_some_iff] at hread
    rcases hread with hv4 | ⟨-, hv6⟩
    · exact .inl (colon_mem_of_readV4? hv4)
    · exact .inr (bracket_mem_of_readV6? hv6)
  · contradiction

end SocketAddress

end KeyManagement
