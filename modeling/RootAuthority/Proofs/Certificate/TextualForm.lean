import RootAuthority.Proofs.Mint
import RootAuthority.Proofs.Octets.Base64

/-!
# The textual form of a certificate

`Pem.IsForm` says what a text has to look like that stands for the octets of a certificate: which
lines it has, how long they are and what their characters spell. A text is the form of at most one
string of octets (`Pem.IsForm.unique`), and what an authority gives out is the form of its certificate
(`Authority.pem_isForm`).
-/

namespace RootAuthority

namespace Pem

/-- **The text is the textual form of the octets**: between two boundary lines stand the full lines
    and a last one, each line ends in a line feed, and together the lines spell the octets. -/
structure IsForm (text : String) (full : List (List Char)) (last : List Char) (der : Octets) :
    Prop where
  lines : Text.pieces '\n' text.toList = "-----BEGIN CERTIFICATE-----".toList
    :: full ++ [last, "-----END CERTIFICATE-----".toList, []]
  noReturn : '\r' ∉ text.toList
  fullLines : ∀ line ∈ full, line.length = 64
  nonempty : 1 ≤ last.length
  short : last.length ≤ 64
  alphabet : ∀ c ∈ full.flatten ++ last, c = '=' ∨ (Base64.value? c).isSome
  spelled : Base64.decode? (full.flatten ++ last) = some der

/-- **Octets that are there have a textual form.** -/
theorem exists_isForm {der : Octets} (h : der ≠ []) :
    ∃ full last, IsForm (certificateText der) full last der := by
  obtain ⟨full, last, hlines, hfull, hlast, hlength, htext⟩ :=
    exists_lines (Base64.encode_ne_nil h)
  refine ⟨full, last, ?_⟩
  exact
    { lines := by
        rw [pieces_certificateText, hlines, List.cons_append, List.append_assoc]
        rfl
      noReturn := return_not_mem_certificateText der
      fullLines := hfull
      nonempty := List.length_pos_iff.mpr hlast
      short := hlength
      alphabet := fun c hc => Base64.value?_isSome_of_mem_encode (htext ▸ hc)
      spelled := by rw [htext, Base64.decode?_encode] }

/-- **A text is the form of one string of octets only.** -/
theorem IsForm.unique {text : String} {full full' : List (List Char)} {last last' : List Char}
    {der der' : Octets} (h : IsForm text full last der) (h' : IsForm text full' last' der') :
    der = der' := by
  have hlines := (List.cons.inj (h.lines.symm.trans h'.lines)).2
  have hsplit : (full ++ [last]) ++ ["-----END CERTIFICATE-----".toList, []]
      = (full' ++ [last']) ++ ["-----END CERTIFICATE-----".toList, []] := by
    simpa using hlines
  obtain ⟨rfl, hlast⟩ := List.append_inj' (List.append_cancel_right hsplit) rfl
  obtain rfl := (List.cons.inj hlast).1
  exact Option.some.inj (h.spelled.symm.trans h'.spelled)

end Pem

/-- A certificate that was read has octets. -/
theorem Certificate.ne_nil_of_ofDer {der : Octets} {c : Certificate} (h : ofDer der = .ok c) :
    der ≠ [] := by
  rintro rfl
  cases h

namespace Authority

/-- **What an authority with an accepted certificate gives out** is the textual form of its octets,
    and no authority with another certificate gives out the same text. -/
theorem pem_isForm {a : Authority} {der : Octets} (h : Certificate.ofDer der = .ok a.certificate) :
    (∃ full last, Pem.IsForm a.pem full last a.certificate.der) ∧
    ∀ (b : Authority) (other : Octets), Certificate.ofDer other = .ok b.certificate →
      b.pem = a.pem → b.certificate.der = a.certificate.der := by
  have hform {c : Authority} {bs : Octets} (hc : Certificate.ofDer bs = .ok c.certificate) :
      ∃ full last, Pem.IsForm c.pem full last c.certificate.der := by
    refine Pem.exists_isForm ?_
    rw [Certificate.der_of_ofDer hc]
    exact Certificate.ne_nil_of_ofDer hc
  obtain ⟨full, last, ha⟩ := hform h
  refine ⟨⟨full, last, ha⟩, fun b other hb hsame => ?_⟩
  obtain ⟨full', last', hother⟩ := hform hb
  rw [hsame] at hother
  exact hother.unique ha

/-- A freshly minted authority with the default identity, and the same one as it is recovered. -/
theorem pem_isForm_minted : ∃ (a b : Authority) (der : Octets),
    Certificate.ofDer der = .ok a.certificate ∧ Certificate.ofDer der = .ok b.certificate ∧
    (∃ full last, Pem.IsForm a.pem full last a.certificate.der) ∧
    b.pem = a.pem ∧ b.certificate.der = a.certificate.der := by
  obtain ⟨a, _, _, _, _, -, hminted⟩ := World.exists_minted_untouched
  have hread := hminted.readBack
  obtain ⟨hform, honly⟩ := pem_isForm hread
  exact ⟨a, { a with origin := .recovered }, _, hread, hread, hform, rfl, honly _ _ hread rfl⟩

end Authority

end RootAuthority
