import RecordGate.Acl.Entitlement
import RecordGate.Proofs.Text.Digits
import RecordGate.Proofs.Text.Words

/-!
# Texts of actions

A set of actions may be written as a list of names in any case and spacing, as `all` or `none`, as
nothing, or as a number whose bits are the actions. Each of these texts is read as the set that it
stands for.
-/

namespace RecordGate

namespace Text

/-- Words with commas between them. -/
def commaList : List (List Char) → List Char
  | [] => []
  | [w] => w
  | w :: v :: rest => w ++ ',' :: commaList (v :: rest)

theorem foldChar_of_isDigit {c : Char} (h : isDigit c = true) : foldChar c = c := by
  unfold isDigit digit? at h
  unfold foldChar
  split at h
  · rename_i hbounds
    simp only [Bool.and_eq_true, decide_eq_true_eq, Char.reduceToNat] at hbounds
    rw [if_neg]
    simp
    omega
  · cases h

theorem pieces_commaList {words : List (List Char)} (hne : words ≠ [])
    (h : ∀ w ∈ words, ',' ∉ w) : pieces ',' (commaList words) = words := by
  induction words with
  | nil => exact absurd rfl hne
  | cons w words ih =>
      have hw := pieces_of_not_mem (h w List.mem_cons_self)
      cases words with
      | nil => exact hw
      | cons v rest =>
          have hrest := ih (by simp) fun u hu => h u (List.mem_cons_of_mem w hu)
          rw [commaList, pieces_append, hw, hrest]
          rfl

theorem mem_commaList {w : List Char} {words : List (List Char)} {c : Char} (hw : w ∈ words)
    (hc : c ∈ w) : c ∈ commaList words := by
  induction words with
  | nil => cases hw
  | cons v words ih =>
      cases words with
      | nil =>
          rw [List.mem_singleton.mp hw] at hc
          exact hc
      | cons u rest =>
          rw [commaList, List.mem_append, List.mem_cons]
          rcases List.mem_cons.mp hw with rfl | hw
          · exact .inl hc
          · exact .inr (.inr (ih hw))

end Text

namespace Entitlement

/-- A text that spells the name of an action is read as this action. -/
theorem parse?_of_spells {a : Entitlement} {t : List Char} (h : Text.Spells a.name t) :
    parse? (String.ofList t) = some a := by
  have hblank : (Text.fold a.name).any Text.isBlank = false := by cases a <;> decide
  have hsame := Text.sameName_iff.mp (h.sameName_trimmed hblank)
  have hother (b : Entitlement) :
      Text.sameName b.name (Text.trim (String.ofList t)) = Text.sameName b.name a.name := by
    rw [Text.trim, String.toList_ofList, Text.sameName, Text.sameName, hsame]
  unfold parse?
  simp only [hother]
  cases a <;> rfl

/-- Reading the names of actions does not depend on the blanks around them. -/
theorem map_parse?_congr {texts others : List (List Char)}
    (h : texts.map Text.trimmed = others.map Text.trimmed) :
    texts.map (fun t => parse? (String.ofList t)) =
      others.map fun t => parse? (String.ofList t) := by
  let find (u : List Char) : Option Entitlement :=
    all.find? fun e => Text.sameName e.name (String.ofList u)
  have hfind (t : List Char) : parse? (String.ofList t) = find (Text.trimmed t) := by
    simp [parse?, Text.trim, find]
  have hmap := congrArg (List.map find) h
  simpa only [List.map_map, Function.comp_def, hfind] using hmap

theorem comma_not_mem {a : Entitlement} {t : List Char} (h : Text.Spells a.name t) : ',' ∉ t :=
  h.not_mem (by decide) (by cases a <;> decide)

/-- The first letter of each name is in no other word for a set of actions. -/
def initials : List Char := ['c', 'r', 'u', 'd']

theorem exists_initial {a : Entitlement} {t : List Char} (h : Text.Spells a.name t) :
    ∃ c ∈ t, Text.foldChar c ∈ initials := by
  have hinitial : (Text.fold a.name).any initials.contains = true := by cases a <;> decide
  obtain ⟨d, hd, hmem⟩ := List.any_eq_true.mp hinitial
  obtain ⟨c, hc, rfl⟩ := h.exists_mem hd
  exact ⟨c, hc, List.contains_iff_mem.mp hmem⟩

theorem isBlank_of_initial {c : Char} (h : Text.foldChar c ∈ initials) :
    Text.isBlank c = false := by
  have hinitials : initials.any Text.isBlank = false := by decide
  rw [← Text.isBlank_foldChar, Bool.eq_false_iff]
  exact List.any_eq_false.mp hinitials _ h

end Entitlement

/-- The letters of the words for no action and for all actions. -/
def wordLetters : List Char := Text.fold "none" ++ Text.fold "all"

/-- The characters of a number have no case and are in no word for a set of actions. -/
theorem foldChar_of_signed? {s : List Char} {n : Int} (h : signed? s = some n) {c : Char}
    (hc : c ∈ s) : Text.foldChar c ∉ wordLetters ++ Entitlement.initials := by
  rcases isDigit_or_sign_of_signed? h hc with hdigit | rfl | rfl
  · have hfold : Text.foldChar c = c := Text.foldChar_of_isDigit hdigit
    have hletters : (wordLetters ++ Entitlement.initials).any isDigit = false := by decide
    rw [hfold]
    intro hmem
    exact List.any_eq_false.mp hletters c hmem hdigit
  · decide
  · decide

theorem not_mem_wordLetters_of_initial {c : Char} (h : Text.foldChar c ∈ Entitlement.initials) :
    Text.foldChar c ∉ wordLetters := by
  have hinitials : Entitlement.initials.any wordLetters.contains = false := by decide
  intro hmem
  exact List.any_eq_false.mp hinitials _ h (List.contains_iff_mem.mpr hmem)

/-- A text with the initial of the name of an action is no number. -/
theorem signed?_of_initial {s : List Char} {c : Char} (hc : c ∈ s)
    (h : Text.foldChar c ∈ Entitlement.initials) : signed? s = none := by
  by_contra hsome
  obtain ⟨n, hn⟩ := Option.ne_none_iff_exists'.mp hsome
  exact foldChar_of_signed? hn hc (List.mem_append_right _ h)

namespace EntitlementSet

/-- The texts that stand for sets of actions, and the actions in these. -/
inductive Tells : List Char → (Entitlement → Prop) → Prop
  | nothing {t : List Char} : Text.Spells "" t → Tells t fun _ => False
  | none {t : List Char} : Text.Spells "none" t → Tells t fun _ => False
  | all {t : List Char} : Text.Spells "all" t → Tells t fun _ => True
  | mask {before digits after : List Char} {n : Nat} : Text.Blank before → Text.Blank after →
      signed? digits = some (Int.ofNat n) → n ≤ 255 →
      Tells (before ++ digits ++ after) fun a => n / a.bit % 2 = 1
  | names {words : List (List Char × Entitlement)} : words ≠ [] →
      (∀ w ∈ words, Text.Spells w.2.name w.1) →
      Tells (Text.commaList (words.map Prod.fst)) fun a => a ∈ words.map Prod.snd

theorem parse_of_sameName_none {t : List Char}
    (h : Text.sameName "none" (String.ofList (Text.trimmed t)) = true) :
    parse (String.ofList t) = .ok empty := by
  simp [parse, Text.trim, Text.sameName_symm h]

theorem parse_of_sameName_all {t : List Char}
    (h : Text.sameName "all" (String.ofList (Text.trimmed t)) = true) :
    parse (String.ofList t) = .ok full := by
  have hempty : Text.trimmed t ≠ [] := by
    intro hnil
    rw [hnil] at h
    cases h
  have hnone : Text.sameName (String.ofList (Text.trimmed t)) "none" = false := by
    rw [Text.sameName, ← Text.sameName_iff.mp h]
    rfl
  simp [parse, Text.trim, Text.sameName_symm h, hnone, hempty]

/-- A text with a character that is in no word for a set is read as a number or as names. -/
theorem parse_of_mem {t : List Char} {c : Char} (hc : c ∈ t) (hblank : Text.isBlank c = false)
    (hletter : Text.foldChar c ∉ wordLetters) :
    parse (String.ofList t) =
      ((signed? (Text.trimmed t)).bind fun n => (Ranged.ofInt? n : Option Integer64)).elim
        (ofNames ((Text.pieces ',' (Text.trimmed t)).map String.ofList))
        fun n => .ok (ofWireValue n.val) := by
  have hmem := Text.mem_trimmed hc hblank
  have hempty : (String.ofList (Text.trimmed t)).isEmpty = false := by
    cases h : Text.trimmed t with
    | nil =>
        rw [h] at hmem
        cases hmem
    | cons d rest => simp
  have hother {word : String} (hword : Text.foldChar c ∉ Text.fold word) :
      Text.sameName (String.ofList (Text.trimmed t)) word = false := by
    rw [Bool.eq_false_iff]
    intro hsame
    rw [← Text.sameName_iff.mp hsame, Text.fold, String.toList_ofList] at hword
    exact hword (List.mem_map_of_mem hmem)
  have hnone := hother fun h => hletter (List.mem_append_left _ h)
  have hall := hother fun h => hletter (List.mem_append_right _ h)
  simp only [parse, Text.trim, String.toList_ofList, hempty, hnone, hall, Text.split, Bool.or_false,
    Bool.false_eq_true, if_false]
  cases (signed? (Text.trimmed t)).bind fun n => (Ranged.ofInt? n : Option Integer64) <;> rfl

theorem allows_ofWireValue {n : Nat} (h : n ≤ 255) (a : Entitlement) :
    (ofWireValue (Int.ofNat n)).allows a = true ↔ n / a.bit % 2 = 1 := by
  have hbyte : Nat.blt n 256 = true := Nat.blt_eq.mpr (by omega)
  have hbits : ofWireValue (Int.ofNat n) = ofBits n := if_pos hbyte
  rw [hbits]
  cases a <;> simp [allows, ofBits, Entitlement.bit, Nat.testBit_eq_decide_div_mod_eq]

theorem exists_ofNames {texts : List (List Char)} {actions : List Entitlement}
    (h : texts.map (fun t => Entitlement.parse? (String.ofList t)) = actions.map some) :
    ∃ s, ofNames (texts.map String.ofList) = .ok s ∧ ∀ a, s.allows a = true ↔ a ∈ actions := by
  induction texts generalizing actions with
  | nil =>
      cases actions with
      | nil => exact ⟨empty, rfl, fun a => by cases a <;> simp [allows, empty]⟩
      | cons b actions => cases h
  | cons t texts ih =>
      cases actions with
      | nil => cases h
      | cons b actions =>
          rw [List.map_cons, List.map_cons, List.cons.injEq] at h
          obtain ⟨s, hs, hallows⟩ := ih h.2
          refine ⟨(single b).union s, by simp [ofNames, h.1, hs, Except.map], fun a => ?_⟩
          have hsingle : (single b).allows a = true ↔ a = b := by cases a <;> cases b <;> decide
          rw [allows_union, Bool.or_eq_true, hsingle, hallows, List.mem_cons]

/-- A number of one byte between blanks is read as the set of its bits. -/
theorem exists_parse_mask {before digits after : List Char} {n : Nat} (hbefore : Text.Blank before)
    (hafter : Text.Blank after) (hnumber : signed? digits = some (Int.ofNat n)) (hn : n ≤ 255) :
    ∃ s, parse (String.ofList (before ++ digits ++ after)) = .ok s ∧
      ∀ a, s.allows a = true ↔ n / a.bit % 2 = 1 := by
  have htrimmed : Text.trimmed (before ++ digits ++ after) = digits := by
    rw [Text.trimmed_append_right _ hafter, Text.trimmed_append_left hbefore]
    exact Text.trimmed_of_forall fun c hc => isBlank_of_signed? hnumber hc
  have hrange : -9223372036854775808 ≤ Int.ofNat n ∧ Int.ofNat n ≤ 9223372036854775807 := by
    rw [Int.ofNat_eq_natCast]
    omega
  have hread : (Ranged.ofInt? (Int.ofNat n) : Option Integer64) =
      some ⟨Int.ofNat n, hrange.1, hrange.2⟩ := dif_pos hrange
  obtain ⟨c, hc⟩ : ∃ c, c ∈ digits := by
    cases digits with
    | nil => cases hnumber
    | cons c rest => exact ⟨c, List.mem_cons_self⟩
  have hletter : Text.foldChar c ∉ wordLetters := fun hmem =>
    foldChar_of_signed? hnumber hc (List.mem_append_left _ hmem)
  refine ⟨ofWireValue (Int.ofNat n), ?_, allows_ofWireValue hn⟩
  rw [parse_of_mem (by simp [hc]) (isBlank_of_signed? hnumber hc) hletter, htrimmed, hnumber,
    Option.bind_some, hread, Option.elim_some]

/-- Names between commas are read as the set of what they name. -/
theorem exists_parse_names {words : List (List Char × Entitlement)} (hne : words ≠ [])
    (hwords : ∀ w ∈ words, Text.Spells w.2.name w.1) :
    ∃ s, parse (String.ofList (Text.commaList (words.map Prod.fst))) = .ok s ∧
      ∀ a, s.allows a = true ↔ a ∈ words.map Prod.snd := by
  have hpieces : Text.pieces ',' (Text.commaList (words.map Prod.fst)) = words.map Prod.fst := by
    refine Text.pieces_commaList (by simpa using hne) fun t ht => ?_
    obtain ⟨w, hw, rfl⟩ := List.mem_map.mp ht
    exact Entitlement.comma_not_mem (hwords w hw)
  have hmem {w : List Char × Entitlement} (hw : w ∈ words) {c : Char} (hc : c ∈ w.1) :
      c ∈ Text.commaList (words.map Prod.fst) :=
    Text.mem_commaList (List.mem_map_of_mem hw) hc
  generalize Text.commaList (words.map Prod.fst) = t at *
  have hactions : (Text.pieces ',' (Text.trimmed t)).map
      (fun t => Entitlement.parse? (String.ofList t)) = (words.map Prod.snd).map some := by
    have hcomma : Text.isBlank ',' = false := by decide
    have htrimmed := Text.map_trimmed_pieces_trimmed hcomma t
    have hread (w : List Char × Entitlement) (hw : w ∈ words) :
        Entitlement.parse? (String.ofList w.1) = some w.2 :=
      Entitlement.parse?_of_spells (hwords w hw)
    rw [Entitlement.map_parse?_congr htrimmed, hpieces, List.map_map, List.map_map]
    simp only [Function.comp_def]
    exact List.map_congr_left hread
  -- The initial of a name tells the text apart from a number and from the words for other sets.
  obtain ⟨w, hw⟩ := List.exists_mem_of_ne_nil words hne
  obtain ⟨c, hc, hinitial⟩ := Entitlement.exists_initial (hwords w hw)
  have hblank := Entitlement.isBlank_of_initial hinitial
  have hletter := not_mem_wordLetters_of_initial hinitial
  have hnumber := signed?_of_initial (Text.mem_trimmed (hmem hw hc) hblank) hinitial
  obtain ⟨s, hs, hallows⟩ := exists_ofNames hactions
  refine ⟨s, ?_, hallows⟩
  rw [parse_of_mem (hmem hw hc) hblank hletter, hnumber, Option.bind_none, Option.elim_none]
  exact hs

/-- Every text for a set of actions is read as the set that it stands for. -/
theorem exists_parse_of_tells {t : List Char} {contained : Entitlement → Prop}
    (h : Tells t contained) :
    ∃ s, parse (String.ofList t) = .ok s ∧ ∀ a, s.allows a = true ↔ contained a := by
  have hempty (a : Entitlement) : empty.allows a = true ↔ False := by cases a <;> decide
  have hfull (a : Entitlement) : full.allows a = true ↔ True := by cases a <;> decide
  cases h with
  | nothing hspells =>
      have hnil : Text.trimmed t = [] := by
        have hfold := Text.sameName_iff.mp (hspells.sameName_trimmed (by decide))
        rw [Text.fold, Text.fold, String.toList_ofList] at hfold
        simpa using hfold.symm
      exact ⟨empty, by simp [parse, Text.trim, hnil], hempty⟩
  | none hspells =>
      exact ⟨empty, parse_of_sameName_none (hspells.sameName_trimmed (by decide)), hempty⟩
  | all hspells =>
      exact ⟨full, parse_of_sameName_all (hspells.sameName_trimmed (by decide)), hfull⟩
  | mask hbefore hafter hnumber hn => exact exists_parse_mask hbefore hafter hnumber hn
  | names hne hwords => exact exists_parse_names hne hwords

end EntitlementSet

end RecordGate
