import ThemeLint.Proofs.Report
import ThemeLint.Proofs.Yaml.Scalar

namespace ThemeLint.Report

open Bytes Utf8

structure Account where
  root : Bytes
  filesScanned : Int
  count : Int
  violations : List Violation
deriving DecidableEq, Repr

namespace Account

def of (r : Result) : Account := ⟨r.root, r.files.length, r.violations.length, r.violations⟩

-- The value of a key, which stands alone on its line or behind an indentation.
def value? (lead key : String) (line : Bytes) : Option Bytes :=
  afterStart? (utf8 lead ++ utf8 key ++ utf8 ": ") line

def textAt? (lead key : String) (line : Bytes) : Option Bytes :=
  (value? lead key line).bind Yaml.text?

def integerAt? (lead key : String) (line : Bytes) : Option Int :=
  (value? lead key line).bind Yaml.integer?

-- An item of the list: a mapping with its first key behind the dash.
def violation? : List Bytes → Option Violation
  | [path, relPath, line, column, ruleId, found, message] => do
    some {
      path := ← textAt? "  - " "path" path
      relPath := ← textAt? "    " "rel_path" relPath
      line := ← integerAt? "    " "line" line
      column := ← integerAt? "    " "column" column
      ruleId := ← textAt? "    " "rule_id" ruleId
      found := ← textAt? "    " "match" found
      message := ← textAt? "    " "message" message }
  | _ => none

-- The items up to the end, where nothing stands behind the last line feed.
def violations? : List Bytes → Option (List Violation)
  | [] => none
  | [rest] => if rest.isEmpty then some [] else none
  | a :: b :: c :: d :: e :: f :: g :: rest => do
    let violation ← violation? [a, b, c, d, e, f, g]
    (violations? rest).map (violation :: ·)
  | _ => none

def read? (report : Bytes) : Option Account :=
  match partsBy lf report with
  | root :: files :: count :: header :: rest => do
    let violations ← violations? rest
    let account : Account := {
      root := ← textAt? "" "root" root
      filesScanned := ← integerAt? "" "files_scanned" files
      count := ← integerAt? "" "count" count
      violations := violations }
    if header = utf8 (if violations.isEmpty then "violations: []" else "violations:") then
      some account
    else none
  | _ => none

end Account

def fieldLine (lead key : String) (value : Bytes) : Bytes :=
  utf8 lead ++ utf8 key ++ utf8 ": " ++ value

variable {lead key : String} {value text : Bytes}

theorem value?_fieldLine (lead key : String) (value : Bytes) :
    Account.value? lead key (fieldLine lead key value) = some value :=
  afterStart?_eq_some.mpr rfl

theorem textAt?_fieldLine (lead key : String) (h : Yaml.text? value = some text) :
    Account.textAt? lead key (fieldLine lead key value) = some text := by
  rw [Account.textAt?, value?_fieldLine, Option.bind_some, h]

theorem integerAt?_fieldLine (lead key : String) (n : Int) :
    Account.integerAt? lead key (fieldLine lead key (ofInt n)) = some n := by
  rw [Account.integerAt?, value?_fieldLine, Option.bind_some, Yaml.integer?_ofInt]

theorem partsBy_line {line : Bytes} (h : lf ∉ line) (rest : Bytes) :
    partsBy lf (line ++ lf :: rest) = line :: partsBy lf rest := by
  rw [partsBy_append_cons, partsBy_of_notMem h, List.singleton_append]

theorem partsBy_fieldLine (hkey : lf ∉ utf8 lead ++ utf8 key ++ utf8 ": ") (hvalue : lf ∉ value)
    (rest : Bytes) :
    partsBy lf (fieldLine lead key value ++ lf :: rest) =
      fieldLine lead key value :: partsBy lf rest := by
  apply partsBy_line
  rw [fieldLine, List.mem_append, not_or]
  exact ⟨hkey, hvalue⟩

-- A field takes one line, and what follows it starts on the next.
theorem partsBy_yamlText (hkey : lf ∉ utf8 lead ++ utf8 key ++ utf8 ": ") (htext : Yaml.IsLine text)
    (indent : Nat) (rest : Bytes) :
    partsBy lf (utf8 lead ++ (yamlText indent key text ++ rest)) =
      fieldLine lead key (Yaml.scalar indent text).1 :: partsBy lf rest := by
  obtain ⟨hended, hvalue⟩ := Yaml.scalar_oneLine htext indent
  rw [← partsBy_fieldLine hkey hvalue]
  simp [yamlText, fieldLine, hended]

theorem partsBy_yamlNumber (hkey : lf ∉ utf8 lead ++ utf8 key ++ utf8 ": ") (n : Int)
    (rest : Bytes) :
    partsBy lf (utf8 lead ++ (yamlNumber key n ++ rest)) =
      fieldLine lead key (ofInt n) :: partsBy lf rest := by
  rw [← partsBy_fieldLine hkey (lf_notMem_ofInt n)]
  simp [yamlNumber, fieldLine]

def violationLines (v : Violation) : List Bytes :=
  [fieldLine "  - " "path" (Yaml.scalar 6 v.path).1,
    fieldLine "    " "rel_path" (Yaml.scalar 6 v.relPath).1,
    fieldLine "    " "line" (ofInt v.line),
    fieldLine "    " "column" (ofInt v.column),
    fieldLine "    " "rule_id" (Yaml.scalar 6 v.ruleId).1,
    fieldLine "    " "match" (Yaml.scalar 6 v.found).1,
    fieldLine "    " "message" (Yaml.scalar 6 v.message).1]

theorem partsBy_violationYaml {v : Violation} (h : ∀ text ∈ v.texts, Yaml.IsLine text)
    (rest : Bytes) :
    partsBy lf (violationYaml v ++ rest) = violationLines v ++ partsBy lf rest := by
  simp only [Violation.texts, List.forall_mem_cons] at h
  obtain ⟨hpath, hrelPath, hruleId, hfound, hmessage, -⟩ := h
  simp only [violationYaml, List.append_assoc]
  rw [partsBy_yamlText (by decide) hpath, partsBy_yamlText (by decide) hrelPath,
    partsBy_yamlNumber (by decide), partsBy_yamlNumber (by decide),
    partsBy_yamlText (by decide) hruleId, partsBy_yamlText (by decide) hfound,
    partsBy_yamlText (by decide) hmessage]
  rfl

theorem violation?_violationLines {v : Violation} (h : ∀ text ∈ v.texts, Yaml.IsLine text) :
    Account.violation? (violationLines v) = some v := by
  have hread : ∀ text ∈ v.texts, Yaml.text? (Yaml.scalar 6 text).1 = some text :=
    fun text htext => Yaml.text?_scalar (h text htext) 6
  simp only [Violation.texts, List.forall_mem_cons] at hread
  obtain ⟨hpath, hrelPath, hruleId, hfound, hmessage, -⟩ := hread
  simp [violationLines, Account.violation?, integerAt?_fieldLine, textAt?_fieldLine _ _ hpath,
    textAt?_fieldLine _ _ hrelPath, textAt?_fieldLine _ _ hruleId, textAt?_fieldLine _ _ hfound,
    textAt?_fieldLine _ _ hmessage]

-- Every item is read as the violation it was written for, and the next one starts behind it.
theorem violations?_flatMap {violations : List Violation}
    (h : ∀ v ∈ violations, ∀ text ∈ v.texts, Yaml.IsLine text) :
    Account.violations? (partsBy lf (violations.flatMap violationYaml)) = some violations := by
  induction violations with
  | nil => rfl
  | cons v violations ih =>
      obtain ⟨hv, hviolations⟩ := List.forall_mem_cons.mp h
      have hread := violation?_violationLines hv
      rw [List.flatMap_cons, partsBy_violationYaml hv]
      simp only [violationLines] at hread
      simp [violationLines, Account.violations?, hread, ih hviolations]

-- The line above the list says whether it is empty.
def header (r : Result) : String :=
  if r.violations.isEmpty then "violations: []" else "violations:"

theorem yaml_eq (r : Result) :
    yaml r = utf8 "" ++ (yamlText 2 "root" r.root ++
      (utf8 "" ++ (yamlNumber "files_scanned" r.files.length ++
      (utf8 "" ++ (yamlNumber "count" r.count ++
      (utf8 (header r) ++ lf :: r.violations.flatMap violationYaml)))))) := by
  have hnone : utf8 "" = [] := rfl
  cases hviolations : r.violations with
  | nil => simp [yaml, header, hnone, hviolations]
  | cons v violations => simp [yaml, header, hnone, hviolations]

theorem partsBy_yaml {r : Result} (hroot : Yaml.IsLine r.root) :
    partsBy lf (yaml r) =
      fieldLine "" "root" (Yaml.scalar 2 r.root).1 ::
        fieldLine "" "files_scanned" (ofInt r.files.length) ::
          fieldLine "" "count" (ofInt r.count) :: utf8 (header r) ::
            partsBy lf (r.violations.flatMap violationYaml) := by
  have hheader : lf ∉ utf8 (header r) := by
    unfold header
    split <;> decide
  rw [yaml_eq, partsBy_yamlText (by decide) hroot, partsBy_yamlNumber (by decide),
    partsBy_yamlNumber (by decide), partsBy_line hheader]

theorem read?_yaml {r : Result} (h : ∀ text ∈ r.texts, Yaml.IsLine text) :
    Account.read? (yaml r) = some (.of r) := by
  simp only [Result.texts, List.forall_mem_cons, List.forall_mem_flatMap] at h
  obtain ⟨hroot, hviolations⟩ := h
  have hreadRoot := Yaml.text?_scalar hroot 2
  simp [Account.read?, partsBy_yaml hroot, violations?_flatMap hviolations,
    textAt?_fieldLine _ _ hreadRoot, integerAt?_fieldLine, header, Account.of, Result.count]

-- The buffer takes the text apart and leaves none of it out.
theorem flatten_buffered (pieces : List Piece) (held : Bytes) (done : List Bytes) :
    (buffered pieces held done).flatten =
      done.reverse.flatten ++ held.reverse ++ pieces.flatMap Piece.text := by
  induction pieces generalizing held done with
  | nil =>
      by_cases hnil : held = []
      · simp [buffered, hnil]
      · simp [buffered, hnil]
  | cons piece rest ih =>
      by_cases hfull : held.length ≥ yamlBuffer
      · rw [buffered, if_pos hfull, ih]
        simp
      · rw [buffered, if_neg hfull, ih]
        simp

theorem write_yaml (colored : Bool) (r : Result) :
    write .unlimited Format.yaml.name colored r = (yaml r, none) := by
  rw [write_unlimited, chunks, yamlChunks, flatten_buffered, flatMap_text_pieces]
  rfl

-- A report in YAML says the whole result, if every text of the result stays on its line: it is
-- read line by line as the root, the number of files and the violations. No text is cut, taken
-- for something that is not a string, or taken for a part of another field. So two results have
-- the same report only if they agree in all of this.
theorem write_yaml_eq_iff {r r' : Result}
    (h : ∀ text ∈ r.texts, Utf8.valid text = true ∧ lf ∉ text)
    (h' : ∀ text ∈ r'.texts, Utf8.valid text = true ∧ lf ∉ text) (colored colored' : Bool) :
    ∃ report report', write .unlimited Format.yaml.name colored r = (report, none) ∧
      write .unlimited Format.yaml.name colored' r' = (report', none) ∧
      Account.read? report = some (.of r) ∧ Account.read? report' = some (.of r') ∧
      (report = report' ↔ r.root = r'.root ∧ r.files.length = r'.files.length ∧
        r.violations = r'.violations) := by
  have hread := read?_yaml h
  have hread' := read?_yaml h'
  refine ⟨yaml r, yaml r', write_yaml colored r, write_yaml colored' r', hread, hread', ?_, ?_⟩
  · intro hsame
    rw [hsame, hread'] at hread
    have haccount : Account.of r' = Account.of r := Option.some.inj hread
    simp only [Account.of, Account.mk.injEq, Int.natCast_inj] at haccount
    exact ⟨haccount.1.symm, haccount.2.1.symm, haccount.2.2.2.symm⟩
  · rintro ⟨hroot, hfiles, hviolations⟩
    simp only [yaml, Result.count, hroot, hfiles, hviolations]

-- Texts that look like a number, a list item with a comment, and the start of a line, with
-- breaks and characters that are escaped.
def misleadingText (message : Bytes) : Result where
  root := utf8 "1:30"
  files := [utf8 "/w/a.js"]
  violations := [{
    path := utf8 "- a: b #c"
    relPath := utf8 "a\u2028\u2029'b"
    line := 3
    column := -7
    ruleId := utf8 "\ufeff\x01\t🎨"
    found := utf8 "null"
    message := message }]

theorem write_yaml_eq_iff_misleadingText :
    (∀ text ∈ (misleadingText (utf8 "true")).texts, Utf8.valid text = true ∧ lf ∉ text) ∧
      (∀ text ∈ (misleadingText (utf8 "\"true\"")).texts, Utf8.valid text = true ∧ lf ∉ text) ∧
      ∃ report report',
        write .unlimited Format.yaml.name false (misleadingText (utf8 "true")) = (report, none) ∧
        write .unlimited Format.yaml.name false (misleadingText (utf8 "\"true\"")) =
          (report', none) ∧
        Account.read? report = some (.of (misleadingText (utf8 "true"))) ∧ report ≠ report' := by
  have hplain : ∀ text ∈ (misleadingText (utf8 "true")).texts,
      Utf8.valid text = true ∧ lf ∉ text := by decide
  have hquoted : ∀ text ∈ (misleadingText (utf8 "\"true\"")).texts,
      Utf8.valid text = true ∧ lf ∉ text := by decide
  obtain ⟨report, report', hwrite, hwrite', hread, -, hsame⟩ :=
    write_yaml_eq_iff hplain hquoted false false
  refine ⟨hplain, hquoted, report, report', hwrite, hwrite', hread, ?_⟩
  rw [ne_eq, hsame]
  decide

end ThemeLint.Report
