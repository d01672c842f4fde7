import LedWall.Proofs.Toml.Trees
import LedWall.Toml.Format

/-!
# Lawful formats

A format is lawful if it gives back every table that it has written, and writes no integer that a
document cannot hold. Tables whose plain values come before the tables inside are enough here, as
fields of a document stand before the headers. The format of written statements is lawful.
-/

namespace LedWall.Toml

/-- What settings rely on. -/
structure Format.Lawful [Format] : Prop where
  /-- A table whose integers fit is written, and read back as it was. -/
  inverse : ∀ t, Orderly depthLimit t → fieldsFit t = true → ∃ text,
    Format.write? t = some text ∧ Format.read? text = some t
  /-- A table with an integer that does not fit is not written. -/
  limit : ∀ t, fieldsFit t = false → Format.write? t = none

theorem fits_of_mem_fields {t : Table} (h : fieldsFit t = true) : ∀ field ∈ t, field.2.fits = true := by
  induction t with
  | nil => simp
  | cons field t ih =>
      rw [fieldsFit, Bool.and_eq_true] at h
      simp only [List.mem_cons, forall_eq_or_imp]
      exact ⟨h.1, ih h.2⟩

def FitUnder (path : Path) (t : Table) : Prop :=
  fieldsFit t = true → ∀ x ∈ (Value.table t).under path, x.Fits

theorem fits_elementsUnder {path : Path} (hpath : path ≠ []) (hlength : path.length < depthLimit)
    {vs : List Value} (hvs : ∀ v ∈ vs, ∃ fields, v = .table fields ∧ FitUnder path fields)
    (hfits : elementsFit vs = true) : ∀ x ∈ elementsUnder path vs, x.Fits := by
  induction vs with
  | nil => simp [elementsUnder]
  | cons v vs ih =>
      simp only [List.mem_cons, forall_eq_or_imp] at hvs
      obtain ⟨⟨t, rfl, ht⟩, hvs⟩ := hvs
      rw [elementsFit, Bool.and_eq_true] at hfits
      intro x hx
      rw [elementsUnder, List.mem_append, List.mem_cons] at hx
      rcases hx with (rfl | hx) | hx
      · exact ⟨hpath, hlength⟩
      · exact ht hfits.1 x hx
      · exact ih hvs hfits.2 x hx

theorem fits_nested {path : Path} (hpath : path ≠ []) (hlength : path.length < depthLimit) {v : Value}
    (hv : v.IsNested (FitUnder path)) (hfits : v.fits = true) :
    ∀ x ∈ v.header path ++ v.under path, x.Fits := by
  intro x hx
  rw [List.mem_append] at hx
  cases v with
  | table t =>
      rcases hx with hx | hx
      · rw [Value.header] at hx
        split at hx
        · cases hx
        · obtain rfl := List.mem_singleton.mp hx
          exact ⟨hpath, hlength⟩
      · exact hv hfits x hx
  | array vs =>
      rcases hx with hx | hx
      · cases hx
      · exact fits_elementsUnder hpath hlength hv.2 hfits x hx
  | _ => cases hv

theorem fits_fieldsUnder {path : Path} (hlength : path.length + 1 < depthLimit) {nested : Table}
    (hnested : ∀ field ∈ nested, field.2.IsNested fun t => ∀ name, FitUnder (path ++ [name]) t)
    (hfits : ∀ field ∈ nested, field.2.fits = true) : ∀ x ∈ fieldsUnder path nested, x.Fits := by
  induction nested with
  | nil => simp [fieldsUnder]
  | cons field nested ih =>
      obtain ⟨name, v⟩ := field
      simp only [List.mem_cons, forall_eq_or_imp] at hnested hfits
      intro x hx
      rw [fieldsUnder, isInline_of_isNested hnested.1, List.mem_append] at hx
      rcases hx with hx | hx
      · exact fits_nested (by simp) (by simpa using hlength) (hnested.1.imp fun t ht => ht name)
          hfits.1 x hx
      · exact ih hnested.2 hfits.2 x hx

theorem Value.IsNested.exists_inside {inside : Table → Prop} {v : Value} (h : v.IsNested inside) :
    ∃ t, inside t := by
  cases v with
  | table t => exact ⟨t, h⟩
  | array elements =>
      obtain ⟨v, vs, rfl⟩ := List.exists_cons_of_ne_nil h.1
      obtain ⟨t, -, ht⟩ := h.2 v List.mem_cons_self
      exact ⟨t, ht⟩
  | _ => cases h

theorem fitUnder_of_orderly {depth : Nat} {t : Table} (ht : Orderly depth t) {path : Path}
    (hdepth : path.length + depth ≤ depthLimit) : FitUnder path t := by
  induction depth generalizing t path with
  | zero => cases ht
  | succ depth ih =>
      intro hfits x hx
      obtain ⟨plain, nested, rfl, hplain, hnested⟩ := ht.order
      rw [Value.under, inlineFields_append hplain hnested, fieldsUnder_append path hplain,
        List.mem_append] at hx
      have hall := fits_of_mem_fields hfits
      rcases hx with hx | hx
      · obtain ⟨field, hfield, rfl⟩ := List.mem_map.mp hx
        exact ⟨by simp, by simp [depthLimit], hplain field hfield,
          hall field (List.mem_append_left nested hfield)⟩
      · -- A header is one key longer than the path, which fits as there is a level below this one.
        have hlevel : 0 < depth := by
          obtain _ | ⟨field, nested⟩ := nested
          · cases hx
          obtain ⟨t, ht⟩ := (hnested field List.mem_cons_self).exists_inside
          cases depth with
          | zero => cases ht
          | succ depth => exact Nat.succ_pos depth
        refine fits_fieldsUnder (by omega) (fun field hfield => ?_)
          (fun field hfield => hall field (List.mem_append_right plain hfield)) x hx
        apply (hnested field hfield).imp
        intro t ht name
        exact ih ht (by simp; omega)

/-- Statements that are written make a lawful format. -/
theorem lawful : Format.Lawful where
  inverse t ht hfits := by
    refine ⟨render t.statements, if_pos hfits, ?_⟩
    have hx : ∀ x ∈ t.statements, x.Fits := fitUnder_of_orderly ht (by simp) hfits
    exact (parse?_render hx).trans (tableOf?_statements ht)
  limit t hfits := if_neg (Bool.eq_false_iff.mp hfits)

end LedWall.Toml
