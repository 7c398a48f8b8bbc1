import Mathlib.Data.List.Basic
import Stencil.Proofs.Block.Loops
import Stencil.Proofs.Text.Filling

namespace Stencil.Block

open Text

/-- The placeholders of the fields of a row with their texts. -/
def fieldTable (key : Text) (row : Row) : List (Text × Text) :=
  row.entries.map fun e => (delimited (key ++ ['.'] ++ e.1), e.2)

theorem instantiate_eq_foldl (key body : Text) (row : Row) :
    instantiate key body row =
      (fieldTable key row).foldl (fun t e => replaceAll e.1 e.2 t) body := by
  rw [fieldTable, List.foldl_map]
  rfl

variable {key front body back : Text} {row : Row}

theorem noOverlap_fieldTable (hkey : isKey key) (hnames : ∀ e ∈ row.entries, isName e.1) :
    NoOverlap (fieldTable key row) := by
  have hplain : ∀ e ∈ row.entries, Plain (key ++ ['.'] ++ e.1) := fun e he =>
    plain_field hkey (plain_of_isName (hnames e he))
  refine ⟨?_, ?_, ?_⟩
  · intro e he
    obtain ⟨field, -, rfl⟩ := List.mem_map.mp he
    simp [delimited, opening]
  · intro e he
    obtain ⟨field, hfield, rfl⟩ := List.mem_map.mp he
    exact skips_delimited_tail _ (hplain field hfield)
  · rw [fieldTable, List.pairwise_map]
    apply (List.pairwise_map.mp row.nodup).imp_of_mem
    intro e e' he he' hne
    have hfield : key ++ ['.'] ++ e.1 ≠ key ++ ['.'] ++ e'.1 := by simpa using hne
    exact ⟨skips_delimited_of_ne (hplain e he) (hplain e' he') hfield,
      skips_delimited_of_ne (hplain e' he') (hplain e he) hfield.symm⟩

theorem instantiate_of_undisturbed (hkey : isKey key) (hnames : ∀ e ∈ row.entries, isName e.1)
    (h : Undisturbed (fieldTable key row) body) :
    instantiate key body row = replaceEach (fieldTable key row) body := by
  have hfold : (fieldTable key row).foldl (fun t e => replaceAll e.1 e.2 t) (replaceEach [] body) =
      replaceEach ([] ++ fieldTable key row) body :=
    Undisturbed.foldl_replaceAll h (noOverlap_fieldTable hkey hnames)
  rw [replaceEach_nil_table, List.nil_append] at hfold
  rw [instantiate_eq_foldl, hfold]

theorem ofText_of_one_tag (hkey : isKey key) {kind : BlockKind}
    (hopen : occurrences (openTag kind key)
      (front ++ (openTag kind key ++ (body ++ (closeTag kind key ++ back)))) = 1)
    (hclose : occurrences (closeTag kind key)
      (front ++ (openTag kind key ++ (body ++ (closeTag kind key ++ back)))) = 1) :
    ofText kind key (front ++ (openTag kind key ++ (body ++ (closeTag kind key ++ back)))) =
      ([⟨front, body⟩], back) := by
  simp only [openTag_eq_tag, closeTag_eq_tag, occurrences_append_tag hkey, if_true,
    Bool.true_eq_false, Bool.false_eq_true, if_false] at hopen hclose
  have hfront : occurrences (openTag kind key) front = 0 := by rw [openTag_eq_tag]; omega
  have hbody : occurrences (closeTag kind key) body = 0 := by rw [closeTag_eq_tag]; omega
  have hback : occurrences (openTag kind key) back = 0 := by rw [openTag_eq_tag]; omega
  exact ofText_single hkey (occurrences_eq_zero_iff.mp hfront) (occurrences_eq_zero_iff.mp hbody)
    (occurrences_eq_zero_iff.mp hback)

/-- The one loop of a key gives the text around it and between, for each row, the body with all
fields of the row filled at once, where filling them in turn brings in no later one.  Then the tags
of the key are taken out, which changes nothing exactly when the texts of the rows brought in none
and completed none. -/
theorem rows_inserted_literally {key front body back : Text} (hkey : isKey key)
    (hopen : occurrences (openTag .loop key)
      (front ++ (openTag .loop key ++ (body ++ (closeTag .loop key ++ back)))) = 1)
    (hclose : occurrences (closeTag .loop key)
      (front ++ (openTag .loop key ++ (body ++ (closeTag .loop key ++ back)))) = 1)
    {rows : List Row} (hnames : ∀ row ∈ rows, ∀ e ∈ row.entries, isName e.1)
    (hrows : ∀ row ∈ rows, Undisturbed (fieldTable key row) body) (ws : Warnings) :
    let t := front ++ (openTag .loop key ++ (body ++ (closeTag .loop key ++ back)))
    let literal := front ++ rows.flatMap (fun row => replaceEach (fieldTable key row) body) ++ back
    resolveLoop key rows t ws = (dropTags .loop key literal, ws) ∧
      (resolveLoop key rows t ws = (literal, ws) ↔
        ¬ openTag .loop key <:+: literal ∧ ¬ closeTag .loop key <:+: literal) := by
  intro t literal
  have hinstances : rows.flatMap (instantiate key body) =
      rows.flatMap fun row => replaceEach (fieldTable key row) body :=
    List.flatMap_congr fun row hrow =>
      instantiate_of_undisturbed hkey (hnames row hrow) (hrows row hrow)
  have hresolve : resolveLoop key rows t ws = (dropTags .loop key literal, ws) := by
    rw [resolveLoop_of_single hkey (ofText_of_one_tag hkey hopen hclose), hinstances]
  refine ⟨hresolve, ?_⟩
  rw [hresolve, ← dropTags_eq_self_iff, Prod.mk.injEq]
  exact and_iff_left rfl

theorem row_with_earlier_fields_inserted :
    let body := "\x7b\x7bk.a\x7d\x7d-\x7b\x7bk.b\x7d\x7d".toList
    let a := "\x7b\x7bk.a\x7d\x7d".toList
    let rows : List Row := [⟨[(['a'], a), (['b'], '\\' :: a)], by decide⟩]
    let t := ['('] ++ (openTag .loop ['k'] ++ (body ++ (closeTag .loop ['k'] ++ [')'])))
    isKey ['k'] ∧ occurrences (openTag .loop ['k']) t = 1 ∧
      occurrences (closeTag .loop ['k']) t = 1 ∧
      (∀ row ∈ rows, ∀ e ∈ row.entries, isName e.1) ∧
      (∀ row ∈ rows, Undisturbed (fieldTable ['k'] row) body) ∧
      resolveLoop ['k'] rows t [] = (['('] ++ a ++ ['-', '\\'] ++ a ++ [')'], []) := by
  intro body a rows t
  have hkey : isKey ['k'] := by decide
  have hopen : occurrences (openTag .loop ['k']) t = 1 := by decide +kernel
  have hclose : occurrences (closeTag .loop ['k']) t = 1 := by decide +kernel
  have hnames : ∀ row ∈ rows, ∀ e ∈ row.entries, isName e.1 := by decide +kernel
  have hrows : ∀ row ∈ rows, Undisturbed (fieldTable ['k'] row) body := by decide +kernel
  have hliteral : ['('] ++ rows.flatMap (fun row => replaceEach (fieldTable ['k'] row) body) ++
      [')'] = ['('] ++ a ++ ['-', '\\'] ++ a ++ [')'] := by decide +kernel
  obtain ⟨-, hiff⟩ := rows_inserted_literally hkey hopen hclose hnames hrows []
  rw [hliteral] at hiff
  exact ⟨hkey, hopen, hclose, hnames, hrows, hiff.mpr ⟨by decide +kernel, by decide +kernel⟩⟩

/-- A text with the placeholder of a later field is read as a body, and a tag of the key is taken
out of a text. -/
theorem row_read_as_template :
    let body := "\x7b\x7bk.a\x7d\x7d".toList
    let t := openTag .loop ['k'] ++ (body ++ closeTag .loop ['k'])
    let row : Row := ⟨[(['a'], "\x7b\x7bk.b\x7d\x7d".toList), (['b'], ['x'])], by decide⟩
    let row' : Row := ⟨[(['a'], "1<loop.k>2".toList)], by decide⟩
    isKey ['k'] ∧ occurrences (openTag .loop ['k']) t = 1 ∧
      occurrences (closeTag .loop ['k']) t = 1 ∧
      replaceEach (fieldTable ['k'] row) body = "\x7b\x7bk.b\x7d\x7d".toList ∧
      resolveLoop ['k'] [row] t [] = (['x'], []) ∧
      replaceEach (fieldTable ['k'] row') body = "1<loop.k>2".toList ∧
      resolveLoop ['k'] [row'] t [] = ("12".toList, []) := by
  decide +kernel

end Stencil.Block
