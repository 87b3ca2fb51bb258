import Tomb.Grimoire.Music.Taxonomy
import Tomb.Lib.Words

/-! Which labels name the same taxon: those whose words of ascii letters and digits are the same. -/
namespace Tomb.Grimoire.Taxonomy
open Tomb.Lib

@[grind =] def asciiWords (label : String) : List (List Char) :=
  (words Char.isAlphanum label.toList).map (List.map Char.toLower)

@[grind =] def asciiName (label : String) : List (List Char) :=
  if asciiWords label = [] then ["untitled".toList] else asciiWords label

theorem toNat_of_isAlphanum {c : Char} (alphanum : c.isAlphanum = true) :
    48 ≤ c.toNat ∧ c.toNat ≤ 57 ∨ 65 ≤ c.toNat ∧ c.toNat ≤ 90 ∨ 97 ≤ c.toNat ∧ c.toNat ≤ 122 := by
  delta Char.isAlphanum Char.isAlpha Char.isUpper Char.isLower Char.isDigit at alphanum
  simp only [Bool.or_eq_true, Bool.and_eq_true, decide_eq_true_eq, ge_iff_le,
    UInt32.le_iff_toNat_le] at alphanum
  have size : c.toNat = c.val.toNat := rfl
  have upper : 'A'.val.toNat = 65 ∧ 'Z'.val.toNat = 90 := ⟨rfl, rfl⟩
  have lower : 'a'.val.toNat = 97 ∧ 'z'.val.toNat = 122 := ⟨rfl, rfl⟩
  have digit : '0'.val.toNat = 48 ∧ '9'.val.toNat = 57 := ⟨rfl, rfl⟩
  omega

theorem isAlphanum_of_isWhiteSpace {c : Char} (white : Text.isWhiteSpace c = true) :
    c.isAlphanum = false := by
  by_contra other
  have counted := toNat_of_isAlphanum ((Bool.not_eq_false _).mp other)
  simp only [Text.isWhiteSpace, Bool.or_eq_true, Bool.and_eq_true, decide_eq_true_eq] at white
  omega

theorem toLower_ne_dash {c : Char} (alphanum : c.isAlphanum = true) : c.toLower ≠ '-' := by
  have counted := toNat_of_isAlphanum alphanum
  unfold Char.toLower
  split
  · rename_i upper
    intro dash
    have same := congrArg Char.toNat dash
    have sum : (c.val + ('a'.val - 'A'.val)).toNat = c.val.toNat + 32 := by
      have shift : ('a'.val - 'A'.val).toNat = 32 := rfl
      have most : c.val.toNat ≤ 90 := upper.2
      rw [UInt32.toNat_add, shift]
      omega
    have other : '-'.toNat = 45 := rfl
    have size : c.val.toNat = c.toNat := rfl
    rw [other] at same
    change (c.val + ('a'.val - 'A'.val)).toNat = 45 at same
    omega
  · rintro rfl
    exact absurd alphanum (by decide)

def slugTurn (acc : List Char × Bool) (ch : Char) : List Char × Bool :=
  if ch.isAlphanum then (acc.1 ++ [ch.toLower], false)
  else if !acc.2 then (acc.1 ++ ['-'], true)
  else acc

theorem slugTurn_foldl (label : List Char) (out : List Char) (lastDash : Bool) :
    (label.foldl slugTurn (out, lastDash)).1 =
      out ++ spaced Char.isAlphanum Char.toLower '-' lastDash label := by
  induction label generalizing out lastDash with
  | nil => exact (List.append_nil out).symm
  | cons ch label ih =>
    rw [List.foldl_cons, spaced, slugTurn]
    by_cases counted : ch.isAlphanum = true
    · rw [if_pos counted, if_pos counted, ih, List.append_assoc, List.singleton_append]
    · rw [if_neg counted, if_neg counted]
      cases lastDash with
      | true => exact ih out true
      | false =>
        refine (ih (out ++ ['-']) true).trans ?_
        rw [List.append_assoc, List.singleton_append]
        rfl

theorem mem_asciiWords {label : String} {word : List Char} (member : word ∈ asciiWords label) :
    word ≠ [] ∧ '-' ∉ word := by
  obtain ⟨original, found, rfl⟩ := List.mem_map.mp member
  obtain ⟨full, counted⟩ := wordly_of_mem_words found
  refine ⟨fun empty => full (List.map_eq_nil_iff.mp empty), fun dash => ?_⟩
  obtain ⟨c, inside, lowered⟩ := List.mem_map.mp dash
  exact toLower_ne_dash (counted c inside) lowered

theorem slugifyTaxonLabel_eq (label : String) :
    slugifyTaxonLabel label = String.ofList (['-'].intercalate (asciiName label)) := by
  have loop : slugifyTaxonLabel label =
      let out := (label.toList.foldl slugTurn ([], true)).1.rdropWhile (· = '-')
      if out.isEmpty then "untitled" else String.ofList out := rfl
  rw [loop, slugTurn_foldl, List.nil_append, spaced_trim fun c counted => toLower_ne_dash counted,
    ← asciiWords, asciiName]
  cases found : asciiWords label with
  | nil => decide
  | cons word rest =>
    have full : word ≠ [] := (mem_asciiWords (found ▸ List.mem_cons_self)).1
    have some : (['-'].intercalate (word :: rest)).isEmpty = false := by
      rw [intercalate_cons, List.isEmpty_eq_false_iff]
      exact List.append_ne_nil_of_left_ne_nil full _
    dsimp only
    rw [some, if_neg Bool.false_ne_true, if_neg (List.cons_ne_nil _ _)]

theorem slugifyTaxonLabel_inj {first second : String} :
    slugifyTaxonLabel first = slugifyTaxonLabel second ↔ asciiName first = asciiName second := by
  constructor
  · intro same
    rw [slugifyTaxonLabel_eq, slugifyTaxonLabel_eq, String.ofList_inj] at same
    have apart (label : String) : (∀ word ∈ asciiName label, '-' ∉ word) ∧ asciiName label ≠ [] := by
      unfold asciiName
      split
      · exact ⟨by decide, by decide⟩
      · rename_i some
        exact ⟨fun word member => (mem_asciiWords member).2, some⟩
    have cut (label : String) := List.splitOn_intercalate '-' (apart label).1 (apart label).2
    rw [← cut first, same, cut second]
  · intro same
    rw [slugifyTaxonLabel_eq, slugifyTaxonLabel_eq, same]

theorem asciiName_trim (label : String) : asciiName (Text.trim label) = asciiName label := by
  have same : asciiWords (Text.trim label) = asciiWords label := by
    unfold asciiWords Text.trim
    rw [String.toList_ofList, words_rdropWhile fun _ => isAlphanum_of_isWhiteSpace,
      words_dropWhile fun _ => isAlphanum_of_isWhiteSpace]
  rw [asciiName, asciiName, same]

def Tables.Keyed (t : Tables) : Prop := (t.taxonz.map TaxonRow.id).Nodup

theorem Sql.exec_keyed {β : Type} (sql : Sql β) {t : Tables} (keyed : t.Keyed) :
    (sql.exec t).2.Keyed := by
  cases sql with
  | selectKind kindSlug => exact keyed
  | selectTaxon kindId slug => exact keyed
  | wouldFormCycle childId parentId => exact keyed
  | deleteParent childId parentId => exact keyed
  | insertTaxon row =>
    simp only [Sql.exec, Tables.insertTaxon]
    split
    · exact keyed
    · rename_i valid
      unfold Tables.Keyed
      rw [List.map_append]
      exact List.nodup_append.mpr ⟨keyed, List.nodup_singleton _, fun id member other single same =>
        valid (.inl (by rwa [← List.mem_singleton.mp single, ← same]))⟩
  | insertParent childId parentId =>
    simp only [Sql.exec, Tables.insertParent]
    split
    · exact keyed
    · split
      · exact keyed
      · exact keyed
  | markDeleted id now deletedBy =>
    have same : (t.markDeleted id now deletedBy).taxonz.map TaxonRow.id =
        t.taxonz.map TaxonRow.id := by
      rw [Tables.markDeleted, List.map_map]
      refine List.map_congr_left fun row _ => ?_
      rw [Function.comp_apply]
      split
      · rfl
      · rfl
    unfold Tables.Keyed Sql.exec
    rwa [same]

section Calls

variable {t : Tables} {kindSlug kindId label id : String} {now : Int}

/-- A call has a kind to look in and a label to look for. -/
def Nameable (t : Tables) (kindSlug label : String) : Prop :=
  (t.selectKind kindSlug).isSome ∧ Text.trim label ≠ ""

theorem findOrCreateTaxon_run (known : t.selectKind kindSlug = some kindId)
    (labelled : Text.trim label ≠ "") :
    (findOrCreateTaxon kindSlug label id now).run t =
      match t.selectTaxon kindId (slugifyTaxonLabel (Text.trim label)) with
      | some row => (.ok ⟨row, kindSlug⟩, t)
      | none =>
        match t.insertTaxon ⟨id, kindId, slugifyTaxonLabel (Text.trim label), Text.trim label, none,
          none, true, now, none, none, none⟩ with
        | (.ok row, t') => (.ok ⟨row, kindSlug⟩, t')
        | (.error message, t') => (.error message, t') := by
  simp [findOrCreateTaxon, labelled, known, Machine.exec, Sql.exec]
  cases t.selectTaxon kindId (slugifyTaxonLabel (Text.trim label)) with
  | some row => rfl
  | none =>
    simp [Machine.exec, Sql.exec]
    split
    · rename_i inserted
      rw [inserted]
    · rename_i inserted
      rw [inserted]

theorem findOrCreateTaxon_unnamed (unnamed : ¬Nameable t kindSlug label) :
    ∃ message, ((findOrCreateTaxon kindSlug label id now).run t).1 = .error message := by
  by_cases labelled : Text.trim label = ""
  · refine ⟨"taxon label is required", ?_⟩
    simp [findOrCreateTaxon, labelled]
  · refine ⟨"unknown taxon kind", ?_⟩
    cases known : t.selectKind kindSlug with
    | some kindId => exact absurd ⟨Option.isSome_of_eq_some known, labelled⟩ unnamed
    | none => simp [findOrCreateTaxon, labelled, known, Machine.exec, Sql.exec]

theorem findOrCreateTaxon_found {row : TaxonRow} (known : t.selectKind kindSlug = some kindId)
    (labelled : Text.trim label ≠ "")
    (found : t.selectTaxon kindId (slugifyTaxonLabel (Text.trim label)) = some row) :
    (findOrCreateTaxon kindSlug label id now).run t = (.ok ⟨row, kindSlug⟩, t) := by
  rw [findOrCreateTaxon_run known labelled, found]

theorem nameable_of_ok {taxon : Taxon}
    (ran : ((findOrCreateTaxon kindSlug label id now).run t).1 = .ok taxon) :
    Nameable t kindSlug label := by
  by_contra unnamed
  obtain ⟨message, failed⟩ := @findOrCreateTaxon_unnamed t kindSlug label id now unnamed
  rw [ran] at failed
  cases failed

theorem selectTaxon_insertTaxon {slug : String} {row : TaxonRow} (kind : row.kindId = kindId)
    (spelled : row.slug = slug) (kept : row.deletedAt = none)
    (absent : t.selectTaxon kindId slug = none) (fresh : row.id ∉ t.taxonz.map TaxonRow.id)
    (known : kindId ∈ t.taxonKindz.map TaxonKind.id) :
    ∃ t', t.insertTaxon row = (.ok row, t') ∧ t'.selectTaxon kindId slug = some row ∧
      t'.taxonKindz = t.taxonKindz ∧ t'.taxonz = t.taxonz ++ [row] := by
  subst kind spelled
  unfold Tables.insertTaxon
  rw [if_neg]
  · refine ⟨_, rfl, ?_, rfl, rfl⟩
    unfold Tables.selectTaxon at absent ⊢
    rw [List.find?_append, absent, Option.none_or]
    simp [kept]
  · rw [absent]
    simp [fresh, known]

/-- A call that is named finds the taxon of its slug or creates it. -/
theorem findOrCreateTaxon_ok (known : t.selectKind kindSlug = some kindId)
    (labelled : Text.trim label ≠ "") (fresh : id ∉ t.taxonz.map TaxonRow.id) :
    ∃ row t', (findOrCreateTaxon kindSlug label id now).run t = (.ok ⟨row, kindSlug⟩, t') ∧
      t'.selectTaxon kindId (slugifyTaxonLabel (Text.trim label)) = some row ∧
      t'.taxonKindz = t.taxonKindz ∧ t.taxonz ⊆ t'.taxonz ∧
      t'.taxonz.map TaxonRow.id ⊆ id :: t.taxonz.map TaxonRow.id := by
  rw [findOrCreateTaxon_run known labelled]
  cases found : t.selectTaxon kindId (slugifyTaxonLabel (Text.trim label)) with
  | some row =>
    exact ⟨row, t, rfl, found, rfl, List.Subset.refl _, List.subset_cons_self _ _⟩
  | none =>
    have kind : kindId ∈ t.taxonKindz.map TaxonKind.id := by
      obtain ⟨kind, there, rfl⟩ := Option.map_eq_some_iff.mp known
      exact List.mem_map_of_mem (List.mem_of_find?_eq_some there)
    generalize slugifyTaxonLabel (Text.trim label) = slug at found ⊢
    generalize created : (⟨id, kindId, slug, Text.trim label, none, none, true, now, none, none,
      none⟩ : TaxonRow) = row
    have named : row.id = id := by rw [← created]
    obtain ⟨t', inserted, there, kinds, rows⟩ := @selectTaxon_insertTaxon t kindId slug row
      (by rw [← created]) (by rw [← created]) (by rw [← created]) found (named ▸ fresh) kind
    refine ⟨row, t', ?_, there, kinds, ?_, ?_⟩
    · dsimp only
      rw [inserted]
    · rw [rows]
      exact List.subset_append_left _ _
    · rw [rows, List.map_append]
      intro other member
      obtain old | new := List.mem_append.mp member
      · exact List.mem_cons_of_mem _ old
      · exact List.mem_cons.mpr (.inl ((List.mem_singleton.mp new).trans named))

theorem selectKind_congr {t' : Tables} (kinds : t'.taxonKindz = t.taxonKindz) :
    t'.selectKind kindSlug = t.selectKind kindSlug := by
  unfold Tables.selectKind
  rw [kinds]

theorem run_keyed (call : Call Taxon) (keyed : t.Keyed) : (call.run t).2.Keyed :=
  Prog.Within.run_keeps (Prog.within_of_forall call (fun _ => trivial))
    (fun sql _ _ keyed => sql.exec_keyed keyed) keyed

end Calls

/-- What a language takes for letters and digits, and what it writes for them in lower case. -/
structure Script where
  isAlphanumeric : Char → Bool
  toLowercase : Char → List Char

def Script.spelling (script : Script) (label : String) : List Char :=
  (label.toList.filter script.isAlphanumeric).flatMap script.toLowercase

def YieldsTwo (t : Tables) (kindSlug first second id id' : String) (now now' : Int) : Prop :=
  ∃ one two, ((findOrCreateTaxon kindSlug first id now).run t).1 = .ok one ∧
    ((findOrCreateTaxon kindSlug second id' now').run
      ((findOrCreateTaxon kindSlug first id now).run t).2).1 = .ok two ∧ one.row.id ≠ two.row.id

section Names

variable {t : Tables} {kindSlug kindId first second id id' : String} {now now' : Int}

theorem mem_of_selectTaxon {slug : String} {row : TaxonRow}
    (found : t.selectTaxon kindId slug = some row) : row ∈ t.taxonz ∧ row.slug = slug := by
  have wanted := List.find?_some found
  simp only [Bool.and_eq_true, decide_eq_true_eq] at wanted
  exact ⟨List.mem_of_find?_eq_some found, wanted.1.2⟩

/-- Two calls that are named yield one taxon just if their names are the same. -/
theorem two_calls (keyed : t.Keyed) (known : t.selectKind kindSlug = some kindId)
    (labelled : Text.trim first ≠ "") (labelled' : Text.trim second ≠ "")
    (fresh : id ∉ t.taxonz.map TaxonRow.id) (fresh' : id' ∉ t.taxonz.map TaxonRow.id)
    (apart : id' ≠ id) :
    ∃ one two, ((findOrCreateTaxon kindSlug first id now).run t).1 = .ok one ∧
      ((findOrCreateTaxon kindSlug second id' now').run
        ((findOrCreateTaxon kindSlug first id now).run t).2).1 = .ok two ∧
      (one.row.id = two.row.id ↔ asciiName first = asciiName second) := by
  obtain ⟨row, t', ran, found, kinds, -, ids⟩ :=
    @findOrCreateTaxon_ok t kindSlug kindId first id now known labelled fresh
  have known' : t'.selectKind kindSlug = some kindId := (selectKind_congr kinds).trans known
  have unused : id' ∉ t'.taxonz.map TaxonRow.id := fun used =>
    (List.mem_cons.mp (ids used)).elim apart fresh'
  obtain ⟨row', t'', ran', found', -, kept, -⟩ :=
    @findOrCreateTaxon_ok t' kindSlug kindId second id' now' known' labelled' unused
  refine ⟨⟨row, kindSlug⟩, ⟨row', kindSlug⟩, by rw [ran], by rw [ran, ran'], ?_⟩
  rw [← asciiName_trim first, ← asciiName_trim second, ← slugifyTaxonLabel_inj]
  constructor
  · intro same
    have keyed' : t'.Keyed := by
      have all := run_keyed (findOrCreateTaxon kindSlug first id now) keyed
      rwa [ran] at all
    have keyed'' : t''.Keyed := by
      have all := run_keyed (findOrCreateTaxon kindSlug second id' now') keyed'
      rwa [ran'] at all
    obtain ⟨there, spelled⟩ := mem_of_selectTaxon found
    obtain ⟨there', spelled'⟩ := mem_of_selectTaxon found'
    have one : row = row' := List.inj_on_of_nodup_map keyed'' (kept there) there' same
    rw [← spelled, ← spelled', one]
  · intro same
    rw [same] at found
    have again := @findOrCreateTaxon_found t' kindSlug kindId second id' now' row known' labelled'
      found
    rw [ran'] at again
    have one : row' = row := (Taxon.mk.inj (Except.ok.inj (Prod.mk.inj again).1)).1
    rw [one]

/-- Labels with different letters or digits yield two taxons just if their ascii words differ. A
label yields the taxon that it has, and no other row. -/
theorem yields_two_iff (script : Script) (keyed : t.Keyed)
    (fresh : id ∉ t.taxonz.map TaxonRow.id) (fresh' : id' ∉ t.taxonz.map TaxonRow.id)
    (apart : id' ≠ id) :
    ((script.spelling first ≠ script.spelling second →
        YieldsTwo t kindSlug first second id id' now now') ↔
      script.spelling first = script.spelling second ∨
        Nameable t kindSlug first ∧ Nameable t kindSlug second ∧
          asciiName first ≠ asciiName second) ∧
    ∀ one t', (findOrCreateTaxon kindSlug first id now).run t = (.ok one, t') →
      (findOrCreateTaxon kindSlug first id' now').run t' = (.ok one, t') := by
  constructor
  · rw [or_iff_not_imp_left]
    refine imp_congr_right fun _ => ?_
    constructor
    · rintro ⟨one, two, ran, ran', differ⟩
      obtain ⟨kind, labelled⟩ := nameable_of_ok ran
      obtain ⟨kindId, known⟩ := Option.isSome_iff_exists.mp kind
      have labelled' := (nameable_of_ok ran').2
      obtain ⟨one', two', first', second', same⟩ := @two_calls t kindSlug kindId first second id id'
        now now' keyed known labelled labelled' fresh fresh' apart
      rw [ran] at first'
      rw [ran'] at second'
      rw [Except.ok.inj first', Except.ok.inj second'] at differ
      exact ⟨⟨kind, labelled⟩, ⟨kind, labelled'⟩, fun equal => differ (same.mpr equal)⟩
    · rintro ⟨⟨kind, labelled⟩, ⟨-, labelled'⟩, differ⟩
      obtain ⟨kindId, known⟩ := Option.isSome_iff_exists.mp kind
      obtain ⟨one, two, ran, ran', same⟩ := @two_calls t kindSlug kindId first second id id' now now'
        keyed known labelled labelled' fresh fresh' apart
      exact ⟨one, two, ran, ran', fun equal => differ (same.mp equal)⟩
  · intro one t' ran
    obtain ⟨kind, labelled⟩ := nameable_of_ok (congrArg Prod.fst ran)
    obtain ⟨kindId, known⟩ := Option.isSome_iff_exists.mp kind
    obtain ⟨row, t'', ran', found, kinds, -, -⟩ :=
      @findOrCreateTaxon_ok t kindSlug kindId first id now known labelled fresh
    rw [ran] at ran'
    obtain ⟨result, rfl⟩ := Prod.mk.inj ran'
    rw [Except.ok.inj result]
    exact findOrCreateTaxon_found ((selectKind_congr kinds).trans known) labelled found

end Names

def ideographs : Script where
  isAlphanumeric c := c.isAlphanum || (0x4E00 ≤ c.toNat && c.toNat ≤ 0x9FFF)
  toLowercase c := [c.toLower]

def genres : Tables :=
  ⟨[⟨"kind-genre", "genre", none⟩], [], [], fun _ none => (nomatch none)⟩

theorem yields_two_in_ascii :
    YieldsTwo genres "genre" "Hip Hop" "Trip Hop" "a1" "b2" 1 2 := by
  have keyed : genres.Keyed := List.nodup_nil
  have law := (@yields_two_iff genres "genre" "Hip Hop" "Trip Hop" "a1" "b2" 1 2 ideographs keyed
    List.not_mem_nil List.not_mem_nil (by decide)).1
  apply law.mpr
  · exact .inr ⟨⟨rfl, by decide⟩, ⟨rfl, by decide⟩, by decide⟩
  · decide

/-- Two genres that are written in another script are one. -/
theorem yields_one_for_two_names :
    ideographs.spelling "日本" ≠ ideographs.spelling "中国" ∧
      ¬YieldsTwo genres "genre" "日本" "中国" "a1" "b2" 1 2 := by
  refine ⟨by decide, ?_⟩
  rintro ⟨one, two, ran, ran', differ⟩
  have first : ((findOrCreateTaxon "genre" "日本" "a1" 1).run genres).1.toOption.map
    (·.row.id) = some "a1" := by decide
  have second : ((findOrCreateTaxon "genre" "中国" "b2" 2).run
    ((findOrCreateTaxon "genre" "日本" "a1" 1).run genres).2).1.toOption.map
    (·.row.id) = some "a1" := by decide
  rw [ran] at first
  rw [ran'] at second
  exact differ ((Option.some.inj first).trans (Option.some.inj second).symm)

end Tomb.Grimoire.Taxonomy
