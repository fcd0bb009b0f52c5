import Mathlib.Data.List.Basic
import RootAuthority.Octets.Base64
import RootAuthority.Proofs.Text.Separated

/-!
# Base64 text and its lines

* `Base64.decode?_encode`: octets are read back from their base64 text.
* `Pem.exists_lines`: the lines of a text are the text cut into full lines and a last one, which is
  neither empty nor longer than the others.
* `Pem.pieces_certificateText`: the line feeds of the textual form of a certificate are the ends of
  its lines, and stand nowhere else.
-/

namespace RootAuthority

namespace Base64

/-! ## 1. Octets and back -/

theorem value?_digit {n : Nat} (h : n < 64) : value? (digit n) = some n := by
  revert n
  decide

/-- A digit is no padding. -/
theorem digit_ne_padding {n : Nat} (h : n < 64) : digit n ≠ '=' := by
  revert n
  decide

theorem ofNat_toNat_eq {n : Nat} {a : UInt8} (h : n = a.toNat) : UInt8.ofNat n = a := by
  rw [h, UInt8.ofNat_toNat]

/-- **Octets are read back from their base64 text.** -/
theorem decode?_encode : ∀ bs : Octets, decode? (encode bs) = some bs
  | [] => rfl
  | [a] => by
      have ha := a.toNat_lt
      rw [encode, decode?, value?_digit (by omega), value?_digit (by omega)]
      have hunused : a.toNat % 4 * 16 % 16 = 0 := by omega
      have hfirst : UInt8.ofNat (a.toNat / 4 * 4 + a.toNat % 4 * 16 / 16) = a :=
        ofNat_toNat_eq (by omega)
      simp only [Option.bind_eq_bind, Option.bind_some, hunused, hfirst, and_self, if_true]
      rfl
  | [a, b] => by
      have ha := a.toNat_lt
      have hb := b.toNat_lt
      rw [encode, decode?, value?_digit (by omega), value?_digit (by omega)]
      have hunused : b.toNat % 16 * 4 % 4 = 0 := by omega
      have hfirst : UInt8.ofNat (a.toNat / 4 * 4 + (a.toNat % 4 * 16 + b.toNat / 16) / 16) = a :=
        ofNat_toNat_eq (by omega)
      have hsecond : UInt8.ofNat ((a.toNat % 4 * 16 + b.toNat / 16) % 16 * 16
          + b.toNat % 16 * 4 / 4) = b := ofNat_toNat_eq (by omega)
      have hy := digit_ne_padding (n := b.toNat % 16 * 4) (by omega)
      have hthird := value?_digit (n := b.toNat % 16 * 4) (by omega)
      simp only [Option.bind_eq_bind, Option.bind_some, if_neg hy, hthird, hunused, hfirst,
        hsecond, and_self, if_true]
      rfl
  | a :: b :: c :: rest => by
      have ha := a.toNat_lt
      have hb := b.toNat_lt
      have hc := c.toNat_lt
      have ih := decode?_encode rest
      rw [encode, decode?, value?_digit (by omega), value?_digit (by omega)]
      have hfirst : UInt8.ofNat (a.toNat / 4 * 4 + (a.toNat % 4 * 16 + b.toNat / 16) / 16) = a :=
        ofNat_toNat_eq (by omega)
      have hsecond : UInt8.ofNat ((a.toNat % 4 * 16 + b.toNat / 16) % 16 * 16
          + (b.toNat % 16 * 4 + c.toNat / 64) / 4) = b := ofNat_toNat_eq (by omega)
      have hthird : UInt8.ofNat ((b.toNat % 16 * 4 + c.toNat / 64) % 4 * 64 + c.toNat % 64) = c :=
        ofNat_toNat_eq (by omega)
      have hy := digit_ne_padding (n := b.toNat % 16 * 4 + c.toNat / 64) (by omega)
      have hz := digit_ne_padding (n := c.toNat % 64) (by omega)
      have hyvalue := value?_digit (n := b.toNat % 16 * 4 + c.toNat / 64) (by omega)
      have hzvalue := value?_digit (n := c.toNat % 64) (by omega)
      simp only [Option.bind_eq_bind, Option.bind_some, if_neg hy, if_neg hz, hyvalue, hzvalue, ih,
        hfirst, hsecond, hthird]
      rfl

/-- Octets that are there make a text. -/
theorem encode_ne_nil : ∀ {bs : Octets}, bs ≠ [] → encode bs ≠ []
  | [], h => (h rfl).elim
  | [_], _ => List.cons_ne_nil _ _
  | [_, _], _ => List.cons_ne_nil _ _
  | _ :: _ :: _ :: _, _ => List.cons_ne_nil _ _

/-- **The characters of a base64 text** are digits and padding. -/
theorem value?_isSome_of_mem_encode {c : Char} : ∀ {bs : Octets}, c ∈ encode bs →
    c = '=' ∨ (value? c).isSome
  | [], h => nomatch h
  | [a], h => by
      have ha := a.toNat_lt
      simp only [encode, List.mem_cons, List.not_mem_nil, or_false] at h
      rcases h with rfl | rfl | rfl | rfl
      · exact .inr (by rw [value?_digit (by omega)]; rfl)
      · exact .inr (by rw [value?_digit (by omega)]; rfl)
      · exact .inl rfl
      · exact .inl rfl
  | [a, b], h => by
      have ha := a.toNat_lt
      have hb := b.toNat_lt
      simp only [encode, List.mem_cons, List.not_mem_nil, or_false] at h
      rcases h with rfl | rfl | rfl | rfl
      · exact .inr (by rw [value?_digit (by omega)]; rfl)
      · exact .inr (by rw [value?_digit (by omega)]; rfl)
      · exact .inr (by rw [value?_digit (by omega)]; rfl)
      · exact .inl rfl
  | a :: b :: c :: rest, h => by
      have ha := a.toNat_lt
      have hb := b.toNat_lt
      have hc := c.toNat_lt
      simp only [encode, List.mem_cons] at h
      rcases h with rfl | rfl | rfl | rfl | h
      · exact .inr (by rw [value?_digit (by omega)]; rfl)
      · exact .inr (by rw [value?_digit (by omega)]; rfl)
      · exact .inr (by rw [value?_digit (by omega)]; rfl)
      · exact .inr (by rw [value?_digit (by omega)]; rfl)
      · exact value?_isSome_of_mem_encode h

/-- A character that is no digit and no padding does not occur. -/
theorem not_mem_encode {c : Char} (hpadding : c ≠ '=') (hvalue : value? c = none) (bs : Octets) :
    c ∉ encode bs := by
  intro h
  rcases value?_isSome_of_mem_encode h with h | h
  · exact hpadding h
  · rw [hvalue] at h
    cases h

end Base64

namespace Pem

/-! ## 2. Lines -/

/-- **A text is cut into full lines and a last one**, which is neither empty nor longer. -/
theorem exists_lines {text : List Char} (h : text ≠ []) :
    ∃ full last, lines text = full ++ [last] ∧ (∀ line ∈ full, line.length = lineLength) ∧
      last ≠ [] ∧ last.length ≤ lineLength ∧ full.flatten ++ last = text := by
  fun_induction lines text with
  | case1 => exact (h rfl).elim
  | case2 text hne ih =>
    by_cases hrest : text.drop lineLength = []
    · have htake : text.take lineLength = text := by
        have happend := List.take_append_drop lineLength text
        rwa [hrest, List.append_nil] at happend
      refine ⟨[], text, ?_, nofun, hne, ?_, rfl⟩
      · rw [hrest, htake, lines, dif_pos rfl]
        rfl
      · exact List.drop_eq_nil_iff.mp hrest
    · obtain ⟨full, last, hlines, hfull, hlast, hlength, htext⟩ := ih hrest
      have hlong : lineLength < text.length := by
        have hlt := mt List.drop_eq_nil_iff.mpr hrest
        omega
      refine ⟨text.take lineLength :: full, last, ?_, ?_, hlast, hlength, ?_⟩
      · rw [hlines, List.cons_append]
      · intro line hm
        rcases List.mem_cons.mp hm with rfl | hm
        · rw [List.length_take]
          omega
        · exact hfull line hm
      · rw [List.flatten_cons, List.append_assoc, htext, List.take_append_drop]

/-- Each line is a part of the text. -/
theorem mem_of_mem_lines {c : Char} {text line : List Char} (hline : line ∈ lines text)
    (hc : c ∈ line) : c ∈ text := by
  fun_induction lines text with
  | case1 => exact nomatch hline
  | case2 text _ ih =>
    rcases List.mem_cons.mp hline with rfl | hline
    · exact List.mem_of_mem_take hc
    · exact List.mem_of_mem_drop (ih hline)

theorem toList_certificateText (der : Octets) : (certificateText der).toList
    = (beginLine.toList :: lines (Base64.encode der) ++ [endLine.toList]).flatMap (· ++ ['\n']) := by
  rw [certificateText, String.toList_join, List.flatMap_map]
  simp [bodyLines, List.flatMap_map]

/-- **The line feeds of the textual form end its lines** and stand nowhere else. -/
theorem pieces_certificateText (der : Octets) : Text.pieces '\n' (certificateText der).toList
    = beginLine.toList :: lines (Base64.encode der) ++ [endLine.toList, []] := by
  have hlines : ∀ line ∈ beginLine.toList :: lines (Base64.encode der) ++ [endLine.toList],
      '\n' ∉ line := by
    intro line hm
    simp only [List.mem_append, List.mem_cons, List.not_mem_nil, or_false] at hm
    rcases hm with (rfl | hm) | rfl
    · decide
    · exact fun hc => Base64.not_mem_encode (by decide) (by decide) der (mem_of_mem_lines hm hc)
    · decide
  rw [toList_certificateText, Text.pieces_flatMap_ended hlines, List.append_assoc]
  rfl

/-- No carriage return stands in the textual form. -/
theorem return_not_mem_certificateText (der : Octets) :
    '\r' ∉ (certificateText der).toList := by
  rw [toList_certificateText, List.mem_flatMap]
  rintro ⟨line, hm, hc⟩
  simp only [List.mem_append, List.mem_cons, List.not_mem_nil, or_false] at hm hc
  rcases hc with hc | hc
  · rcases hm with (rfl | hm) | rfl
    · revert hc
      decide
    · exact Base64.not_mem_encode (by decide) (by decide) der (mem_of_mem_lines hm hc)
    · revert hc
      decide
  · cases hc

end Pem

end RootAuthority
