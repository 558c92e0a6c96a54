import Psop.Dict
import Psop.Paths
import Psop.Skills.Exceptions

/-!
The files of a generated draft, from the check of a builder candidate to the commit.

A candidate names its files by any strings. `normalizeBuilderPath` turns each into a relative path,
`validateFiles` reports the diagnostics of a set of files, `parseGeneratedFiles` normalizes the
checked paths once more when the draft is read back, and `filesToCommit` adds the manifest. The
trimming comes before the leading separators go, so a second normalization may find white space
the first one left. **`normalize_again`** says exactly when it does: never for a path that is
`Snug`, always for another. **`checked_files_committed`** carries this to whole sets of files.
-/
namespace Psop.Builder
open Text Skills

/-! ### Paths -/

/-- `part in {".", ".."}`. -/
def isDots (part : String) : Bool := part = "." || part = ".."

/-- The trimmed text with `/` for every backslash. -/
def slashed (value : String) : List Char :=
  (stripChars value.toList).map fun c => if c = '\\' then '/' else c

/-- What both normalizations do: trim, write `/` for a backslash, drop leading and double slashes,
split, drop empty parts, refuse dots and join. -/
def normalizePath {ε : Type} (illegal : ε) (value : String) : Except ε String :=
  let normalized := (slashed value).dropWhile (· = '/')
  let normalized := Paths.squeezeAll '/' normalized.length normalized
  let parts := (splitOn '/' (String.ofList normalized)).filter (· ≠ "")
  if parts = [] || parts.any isDots then .error illegal else .ok (join "/" parts)

/-- `normalize_builder_path`, with the text of its `ValueError`. -/
def normalizeBuilderPath (value : String) : Except String String :=
  normalizePath ("生成文件路径非法：" ++ value) value

/-- `normalize_generated_path`. -/
def normalizeGeneratedPath (value : String) : Except SkillsError String :=
  normalizePath (SkillValidationError "生成文件路径非法。" [("path", .str value)]) value

/-! ### The check of a candidate's files -/

structure Diagnostic where
  path : String
  code : String
  message : String
  allowedValues : List String
  example? : Json
deriving Repr

/-- `_diagnostic` without allowed values and example. -/
def diagnostic (path code message : String) : Diagnostic := ⟨path, code, message, [], .null⟩

def REQUIRED_BUILDER_FILES : List String :=
  ["README.md", "SKILL.md", "prompts/system.md", "references/README.md", "examples/input.md",
    "examples/expected-output.md", "tests/checklist.md"]

def FORBIDDEN_BUILDER_FILES : List String := ["skill.yaml"]

/-- The places a multi-line `^` matches at: the text itself and what follows each line end. -/
def lineStarts (cs : List Char) : List (List Char) :=
  cs :: cs.tails.filterMap fun
    | '\n' :: rest => some rest
    | _ => none

/-- `\s*`: no alternative of the patterns starts with white space, so it takes all there is. -/
def skipSpaces (cs : List Char) : List Char := cs.dropWhile isSpace

/-- Whether two characters are one without regard to case. Only ASCII letters are compared; the
long s has the lower case s for its own. -/
def sameLetter (c d : Char) : Bool :=
  c.toLower = d.toLower || (c.toNat = 0x17F && d.toLower = 's')

/-- The rest after a literal, without regard to case. -/
def afterLiteral (literal : List Char) (cs : List Char) : Option (List Char) :=
  match literal, cs with
  | [], rest => some rest
  | l :: ls, c :: rest => if sameLetter c l then afterLiteral ls rest else none
  | _ :: _, [] => none

/-- `(?:[-*+]\s*)?` -/
def skipBullet : List Char → List Char
  | c :: rest => if c = '-' || c = '*' || c = '+' then skipSpaces rest else c :: rest
  | [] => []

/-- `(?:\[[ xX]\]\s*)?` -/
def skipBox : List Char → List Char
  | '[' :: c :: ']' :: rest =>
    if c = ' ' || c = 'x' || c = 'X' then skipSpaces rest else '[' :: c :: ']' :: rest
  | cs => cs

/-- `(?:\s*[:：]|\s*$)`: a colon after white space, or a line end inside it. -/
def endsItem (cs : List Char) : Bool :=
  (match skipSpaces cs with
    | [] => true
    | c :: _ => c = ':' || c = '：') || (cs.takeWhile isSpace).any (· = '\n')

/-- `^\s*(?:[-*+]\s*)?(?:\[[ xX]\]\s*)?WORD(?:\s*[:：]|\s*$)` -/
def hasOpenItem (word : String) (content : String) : Bool :=
  (lineStarts content.toList).any fun cs =>
    match afterLiteral word.toList (skipBox (skipBullet (skipSpaces cs))) with
    | some rest => endsItem rest
    | none => false

/-- A literal anywhere, without regard to case. -/
def hasLiteral (literal content : String) : Bool :=
  content.toList.tails.any fun cs => (afterLiteral literal.toList cs).isSome

/-- The patterns of text that stands for something still to be written, by their source text. -/
def PLACEHOLDER_PATTERNS : List (String × (String → Bool)) :=
  [("^\\s*(?:[-*+]\\s*)?(?:\\[[ xX]\\]\\s*)?TODO(?:\\s*[:：]|\\s*$)", hasOpenItem "TODO"),
    ("^\\s*(?:[-*+]\\s*)?待补充(?:\\s*[:：]|\\s*$)", fun content =>
      (lineStarts content.toList).any fun cs =>
        match afterLiteral "待补充".toList (skipBullet (skipSpaces cs)) with
        | some rest => endsItem rest
        | none => false),
    ("示例路径", hasLiteral "示例路径"),
    ("references/\\.\\.\\.", hasLiteral "references/...")]

structure CheckedFiles where
  normalized : Dict String String
  diagnostics : List Diagnostic

/-- What is reported of a file whose path is new. -/
def contentDiagnostics (rawPath path content : String) : List Diagnostic :=
  (if path ∈ FORBIDDEN_BUILDER_FILES then
    [diagnostic ("files." ++ rawPath) "forbidden_file" "builder candidate 不得包含 skill.yaml。"]
  else []) ++
  (if strip content = "" then
    [diagnostic ("files." ++ rawPath) "empty_file" (path ++ " 内容不能为空。")]
  else []) ++
  (PLACEHOLDER_PATTERNS.filter fun pattern => pattern.2 content).map fun pattern =>
    diagnostic ("files." ++ rawPath) "placeholder_content" (path ++ " 包含占位内容：" ++ pattern.1)

/-- One round of the loop over a candidate's files. -/
def checkFile (checked : CheckedFiles) (file : String × String) : CheckedFiles :=
  let (rawPath, content) := file
  match normalizeBuilderPath rawPath with
  | .error text =>
    { checked with
      diagnostics := checked.diagnostics ++ [diagnostic ("files." ++ rawPath) "invalid_path" text] }
  | .ok path =>
    if path ∈ checked.normalized.keys then
      { checked with
        diagnostics := checked.diagnostics ++
          [diagnostic ("files." ++ rawPath) "duplicate_path" ("生成文件路径归一化后重复：" ++ path)] }
    else
      { normalized := checked.normalized.put path content
        diagnostics := checked.diagnostics ++ contentDiagnostics rawPath path content }

/-- `not files.get(path)`. -/
def lacks (files : Dict String String) (path : String) : Bool :=
  (files.get? path).getD "" = ""

/-- `_validate_files` -/
def validateFiles (files : Dict String String) : CheckedFiles :=
  if files.entries = [] then
    ⟨.empty, [diagnostic "files" "required" "files 必须是非空对象。"]⟩
  else
    let checked := files.entries.foldl checkFile ⟨.empty, []⟩
    { checked with
      diagnostics := checked.diagnostics ++
        (REQUIRED_BUILDER_FILES.filter (lacks checked.normalized)).map fun path =>
          diagnostic ("files." ++ path) "missing_required_file"
            ("builder candidate 缺少必需文件：" ++ path) }

/-! ### The draft that is committed -/

def REQUIRED_GENERATED_FILES : List String :=
  ["README.md", "SKILL.md", "prompts/system.md", "references/README.md", "examples/input.md",
    "examples/expected-output.md", "tests/checklist.md"]

/-- The order in which `json.dumps(sort_keys=True)` writes the keys. -/
def keyOrder (a b : String) : Bool := !codesLt (codes b) (codes a)

/-- One round of the loop over the files of a generated draft. -/
def parseFile (files : Dict String String) (file : String × String) :
    Except SkillsError (Dict String String) := do
  let path ← normalizeGeneratedPath file.1
  if path = "skill.yaml" then return files
  return files.put path file.2

/-- The files `parse_generated_skill_draft` takes from the document of a candidate. -/
def parseGeneratedFiles (rawFiles : Dict String String) :
    Except SkillsError (Dict String String) := do
  let files ← rawFiles.entries.foldlM parseFile .empty
  let missing := REQUIRED_GENERATED_FILES.filter (lacks files)
  if missing ≠ [] then
    throw (SkillValidationError "Skill 创建智能体响应缺少必需文件。"
      [("missing_files", .arr (missing.map .str))])
  return files

/-- The directory of materialized files: the text at a relative path, or why it cannot be read. -/
abbrev Sandbox := String → Except SkillsError String

/-- `_read_builder_materialized_draft_files`; without a sandbox the draft stays as it is. -/
def readMaterialized (sandbox : Option Sandbox) (generated : Dict String String) :
    Except SkillsError (Dict String String) :=
  match sandbox with
  | none => .ok generated
  | some read => generated.keys.foldlM (fun files path => return files.put path (← read path)) .empty

/-- `files_to_commit`: the draft and, under its manifest path, the rendered manifest. -/
def filesToCommit (manifest : String) (generated : Dict String String) : Dict String String :=
  generated.put "skill.yaml" manifest

/-! ### What a normalization answers -/

/-- A relative path without empty, `.` or `..` components. -/
structure Relative (path : String) : Prop where
  relative : startsWith "/" path = false
  components : ∀ part ∈ splitOn '/' path, part ≠ "" ∧ part ≠ "." ∧ part ≠ ".."

/-- Between its outer separators the trimmed path neither begins nor ends with white space. -/
def Snug (value : String) : Prop :=
  stripChars (Paths.trim '/' (slashed value)) = Paths.trim '/' (slashed value)

instance (value : String) : Decidable (Snug value) := inferInstanceAs (Decidable (_ = _))

/-- The components of a path. -/
def components (value : String) : List (List Char) := Paths.words '/' (slashed value)

/-- The components an accepted path has. -/
def Legal (parts : List (List Char)) : Prop :=
  parts ≠ [] ∧ ∀ part ∈ parts, part ≠ ['.'] ∧ part ≠ ['.', '.']

theorem split_chars_eq (sep : Char) (cs : List Char) : splitChars sep cs = cs.splitOn sep := by
  induction cs with
  | nil => rfl
  | cons c cs ih =>
    rw [splitChars, List.splitOn_cons_eq_if_modifyHead]
    by_cases same : c = sep
    · simp [same, ih]
    · rw [if_neg same, ih, if_neg (by simpa using same)]
      obtain ⟨part, parts, shape⟩ := List.exists_cons_of_ne_nil (List.splitOn_ne_nil sep cs)
      rw [shape]
      rfl

theorem split_words (cs : List Char) :
    (splitOn '/' (String.ofList cs)).filter (· ≠ "") = (Paths.words '/' cs).map String.ofList := by
  rw [splitOn, String.toList_ofList, split_chars_eq, List.filter_map, Paths.words]
  congr 1
  apply List.filter_congr
  intro part _
  exact decide_eq_decide.mpr (not_congr String.ofList_eq_empty_iff)

theorem join_words (parts : List (List Char)) :
    join "/" (parts.map String.ofList) = String.ofList (Paths.join '/' parts) := by
  induction parts with
  | nil => rfl
  | cons part parts ih =>
    cases parts with
    | nil => rw [Paths.join, List.intercalate_singleton]; rfl
    | cons next parts =>
      rw [Paths.join_cons (List.cons_ne_nil _ _), List.map_cons, List.map_cons, join, ← List.map_cons,
        ih]
      · apply String.toList_inj.mp
        simp
      · simp

/-- The separators the loops take out do not count. -/
theorem words_normalized (value : String) : Paths.words '/'
    (Paths.squeezeAll '/' ((slashed value).dropWhile (· = '/')).length
      ((slashed value).dropWhile (· = '/'))) = components value := by
  rw [Paths.words_squeezeAll, Paths.words_dropWhile, components]

theorem any_dots (parts : List (List Char)) : (parts.map String.ofList).any isDots = true ↔
    ∃ part ∈ parts, part = ['.'] ∨ part = ['.', '.'] := by
  simp [isDots, ← String.toList_inj]

/-- **A normalization** accepts a path with legal components and joins them. -/
theorem normalize_spec {ε : Type} {illegal : ε} {value path : String} :
    normalizePath illegal value = .ok path ↔
      Legal (components value) ∧ path.toList = Paths.join '/' (components value) := by
  simp only [normalizePath, split_words, words_normalized, join_words]
  by_cases legal : Legal (components value)
  · rw [if_neg]
    · simp [legal, ← String.toList_inj, eq_comm]
    · obtain ⟨nonempty, plain⟩ := legal
      rw [Bool.or_eq_true, any_dots]
      rintro (empty | ⟨part, isIn, dot | dots⟩)
      · exact nonempty (by simpa using empty)
      · exact (plain part isIn).1 dot
      · exact (plain part isIn).2 dots
  · rw [if_pos]
    · simp [legal]
    · rw [Bool.or_eq_true, any_dots]
      by_contra neither
      obtain ⟨nonempty, noDots⟩ := not_or.mp neither
      refine legal ⟨by simpa using nonempty, fun part isIn => ⟨?_, ?_⟩⟩
      · exact fun dot => noDots ⟨part, isIn, .inl dot⟩
      · exact fun dots => noDots ⟨part, isIn, .inr dots⟩

/-! ### Normalizing again -/

/-- A trimmed text is one that no white space begins or ends. -/
theorem strip_chars_self {cs : List Char} : stripChars cs = cs ↔
    (∀ c ∈ cs.head?, isSpace c = false) ∧ ∀ c ∈ cs.getLast?, isSpace c = false := by
  constructor
  · intro same
    have ends := strip_ends (String.ofList cs)
    rwa [strip, String.toList_ofList, String.toList_ofList, same] at ends
  · rintro ⟨first, last⟩
    have same := @strip_of_ends (String.ofList cs) (by rwa [String.toList_ofList])
      (by rwa [String.toList_ofList])
    rwa [strip, String.toList_ofList, String.ofList_inj] at same

theorem strip_chars_sublist (cs : List Char) : (stripChars cs).Sublist cs := by
  rw [stripChars_eq]
  exact (List.rdropWhile_prefix _ _).sublist.trans (List.dropWhile_sublist _)

theorem no_backslash (value : String) : '\\' ∉ slashed value := by
  intro isIn
  obtain ⟨c, -, same⟩ := List.mem_map.mp isIn
  split at same
  · cases same
  · rename_i differs
    exact differs same

/-- An accepted path keeps the ends that the given one has between its outer separators. -/
theorem strip_joined (value : String) :
    stripChars (Paths.join '/' (components value)) = Paths.join '/' (components value) ↔
      Snug value := by
  rw [Snug, strip_chars_self, strip_chars_self, components, ← Paths.words_trim,
    Paths.head_join_words (Paths.head_trim _), Paths.last_join_words (Paths.last_trim _)]

/-- The components of a trimmed path that one separator joins. -/
theorem components_joined {value path : String} (joined : path.toList = Paths.join '/' (components value))
    (trimmed : stripChars path.toList = path.toList) : components path = components value := by
  have plain : slashed path = path.toList := by
    rw [slashed, trimmed]
    refine (List.map_congr_left fun c isIn => ?_).trans (List.map_id _)
    rw [if_neg]
    · rfl
    rintro rfl
    rw [joined] at isIn
    rcases Paths.mem_join isIn with same | ⟨part, isPart, isChar⟩
    · cases same
    · exact no_backslash value (Paths.mem_of_word isPart isChar)
  rw [components, plain, joined]
  exact Paths.words_join fun part => Paths.word_of_mem

/-- **Normalizing a second time** changes nothing exactly if the first time left no white space at
the ends, that is, if the path given had none between its outer separators. -/
theorem normalize_again {ε ε' : Type} {illegal : ε} {illegal' : ε'} {value path : String}
    (accepted : normalizePath illegal value = .ok path) :
    normalizePath illegal' path = .ok path ↔ Snug value := by
  obtain ⟨legal, joined⟩ := normalize_spec.mp accepted
  rw [← strip_joined, ← joined, normalize_spec]
  constructor
  · rintro ⟨-, again⟩
    -- a join of words is no longer than the text they come from, so nothing was trimmed
    have shorter := Paths.join_words_length '/' (slashed path)
    rw [← components, ← again, slashed, List.length_map] at shorter
    exact (strip_chars_sublist _).eq_of_length_le shorter
  · intro trimmed
    rw [components_joined joined trimmed]
    exact ⟨legal, joined⟩

/-- An accepted path stays inside its directory. -/
theorem normalize_relative {ε : Type} {illegal : ε} {value path : String}
    (accepted : normalizePath illegal value = .ok path) : Relative path := by
  obtain ⟨⟨nonempty, plain⟩, joined⟩ := normalize_spec.mp accepted
  have parts : splitOn '/' path = (components value).map String.ofList := by
    rw [splitOn, split_chars_eq, joined]
    exact congrArg _ (List.splitOn_intercalate '/' (fun part isIn => (Paths.word_of_mem isIn).2)
      nonempty)
  have component : ∀ part ∈ splitOn '/' path, part ≠ "" ∧ part ≠ "." ∧ part ≠ ".." := by
    intro part isIn
    rw [parts] at isIn
    obtain ⟨cs, isWord, rfl⟩ := List.mem_map.mp isIn
    obtain ⟨noDot, noDots⟩ := plain cs isWord
    refine ⟨fun empty => (Paths.word_of_mem isWord).1 (String.ofList_eq_empty_iff.mp empty), ?_, ?_⟩
    · exact fun dot => noDot (String.ofList_inj.mp dot)
    · exact fun dots => noDots (String.ofList_inj.mp dots)
  refine ⟨?_, component⟩
  cases starts : startsWith "/" path with
  | false => rfl
  | true =>
    obtain ⟨rest, rfl⟩ := startsWith_iff.mp starts
    have first : splitOn '/' ("/" ++ rest) = "" :: splitOn '/' rest :=
      splitOn_at_sep '/' "" rest List.not_mem_nil
    exact absurd rfl (component "" (first ▸ List.mem_cons_self)).1

/-! ### From the check to the commit -/

/-- What a loop over files has checked without a diagnostic: every path is accepted, and the
contents stand under the accepted paths. -/
structure Checks (files : List (String × String)) (before after : Dict String String) : Prop where
  accepted : ∀ file ∈ files, ∃ path, normalizeBuilderPath file.1 = .ok path ∧
    path ∉ FORBIDDEN_BUILDER_FILES
  stored : ∀ path content, after.get? path = some content ↔
    before.get? path = some content ∨
      ∃ file ∈ files, normalizeBuilderPath file.1 = .ok path ∧ file.2 = content

theorem check_file_spec {checked : CheckedFiles} {file : String × String}
    (clean : (checkFile checked file).diagnostics = []) :
    checked.diagnostics = [] ∧ Checks [file] checked.normalized (checkFile checked file).normalized := by
  obtain ⟨rawPath, content⟩ := file
  simp only [checkFile] at clean ⊢
  split at clean
  · exact absurd (List.append_eq_nil_iff.mp clean).2 (List.cons_ne_nil _ _)
  · rename_i path accepted
    split at clean
    · exact absurd (List.append_eq_nil_iff.mp clean).2 (List.cons_ne_nil _ _)
    · rename_i fresh
      obtain ⟨nothing, noContent⟩ := List.append_eq_nil_iff.mp clean
      have allowed : path ∉ FORBIDDEN_BUILDER_FILES := by
        intro forbidden
        rw [contentDiagnostics, if_pos forbidden] at noContent
        cases noContent
      simp only [if_neg fresh]
      refine ⟨nothing, ⟨fun file isIn => ?_, fun other text => ?_⟩⟩
      · obtain rfl := List.mem_singleton.mp isIn
        exact ⟨path, accepted, allowed⟩
      · simp only [List.mem_singleton, exists_eq_left, accepted, Except.ok.injEq]
        by_cases same : path = other
        · subst same
          simp [Dict.get_eq_none.mpr fresh]
        · rw [Dict.get_put_other same]
          simp [same]

theorem check_files_spec {files : List (String × String)} {checked : CheckedFiles}
    (clean : (files.foldl checkFile checked).diagnostics = []) : checked.diagnostics = [] ∧
      Checks files checked.normalized (files.foldl checkFile checked).normalized := by
  induction files generalizing checked with
  | nil =>
    rw [List.foldl_nil] at clean ⊢
    exact ⟨clean, ⟨fun _ isIn => absurd isIn List.not_mem_nil, fun _ _ => by simp⟩⟩
  | cons file files ih =>
    rw [List.foldl_cons] at clean ⊢
    obtain ⟨noMore, rest⟩ := ih clean
    obtain ⟨nothing, first⟩ := check_file_spec noMore
    refine ⟨nothing, fun other isIn => ?_, fun path content => ?_⟩
    · rcases List.mem_cons.mp isIn with rfl | later
      · exact first.accepted other List.mem_cons_self
      · exact rest.accepted other later
    · rw [rest.stored, first.stored, or_assoc]
      simp only [List.mem_cons, exists_eq_or_imp, List.not_mem_nil, or_false, exists_eq_left]

/-- **A set of files** the check has nothing to say about is stored under the accepted paths, and
no required file is missing. -/
theorem validate_files_spec {files : Dict String String}
    (clean : (validateFiles files).diagnostics = []) :
    Checks files.entries .empty (validateFiles files).normalized ∧
      ∀ path ∈ REQUIRED_BUILDER_FILES, lacks (validateFiles files).normalized path = false := by
  simp only [validateFiles] at clean ⊢
  split at clean
  · cases clean
  · rename_i nonempty
    obtain ⟨noMore, complete⟩ := List.append_eq_nil_iff.mp clean
    simp only [if_neg nonempty]
    refine ⟨(check_files_spec noMore).2, fun path isRequired => ?_⟩
    have present := List.filter_eq_nil_iff.mp (List.map_eq_nil_iff.mp complete) path isRequired
    simpa using present

theorem parse_files_spec {files : List (String × String)} (distinct : (files.map Prod.fst).Nodup)
    (fixed : ∀ file ∈ files, normalizeGeneratedPath file.1 = .ok file.1 ∧ file.1 ≠ "skill.yaml")
    (before : Dict String String) (fresh : ∀ file ∈ files, file.1 ∉ before.keys) :
    ∃ after, files.foldlM parseFile before = .ok after ∧ ∀ path content,
      after.get? path = some content ↔
        before.get? path = some content ∨ (path, content) ∈ files := by
  induction files generalizing before with
  | nil => exact ⟨before, rfl, fun _ _ => by simp⟩
  | cons file files ih =>
    obtain ⟨path, content⟩ := file
    obtain ⟨notLater, distinct⟩ := List.nodup_cons.mp distinct
    obtain ⟨same, plain⟩ := fixed _ List.mem_cons_self
    have parsed : parseFile before (path, content) = .ok (before.put path content) := by
      simp only [parseFile, same]
      exact if_neg plain
    obtain ⟨after, done, stored⟩ := ih distinct
      (fun file isIn => fixed file (List.mem_cons_of_mem _ isIn)) (before.put path content) (by
        intro file isIn known
        rcases Dict.mem_keys_put.mp known with rfl | known
        · exact notLater (List.mem_map.mpr ⟨file, isIn, rfl⟩)
        · exact fresh file (List.mem_cons_of_mem _ isIn) known)
    refine ⟨after, by rw [List.foldlM_cons, parsed]; exact done, fun other text => ?_⟩
    rw [stored, List.mem_cons, Prod.mk.injEq]
    by_cases isPath : path = other
    · subst isPath
      have absent := Dict.get_eq_none.mpr (fresh _ List.mem_cons_self)
      rw [Dict.get_put_same, absent]
      simp [eq_comm]
    · rw [Dict.get_put_other isPath]
      simp [Ne.symm isPath]

/-- What a reading of materialized files answers for each path. -/
theorem read_paths_spec {read : Sandbox} {paths : List String} {before after : Dict String String}
    (done : paths.foldlM (fun files path => return files.put path (← read path)) before =
      .ok after) (path content : String) : after.get? path = some content ↔
        (path ∈ paths ∧ read path = .ok content) ∨
          (path ∉ paths ∧ before.get? path = some content) := by
  induction paths generalizing before with
  | nil =>
    obtain rfl := Except.ok.inj done
    simp
  | cons first paths ih =>
    rw [List.foldlM_cons] at done
    cases text : read first with
    | error reason =>
      rw [text] at done
      cases done
    | ok text' =>
      rw [text] at done
      rw [ih done]
      by_cases isFirst : first = path
      · subst isFirst
        by_cases again : first ∈ paths
        · simp [again]
        · simp [again, text]
      · rw [Dict.get_put_other isFirst, List.mem_cons]
        simp [Ne.symm isFirst]

/-- The text a path is committed with: the materialized one where there is a sandbox. -/
def textAt (checked : Dict String String) : Option Sandbox → String → Option String
  | none, path => checked.get? path
  | some read, path => (read path).toOption

/-- What is asked of a checked set of files: reading the draft back leaves every path and every
content as it was checked, and exactly these paths are committed beside the manifest. -/
structure Committed (checked : Dict String String) : Prop where
  fixed : ∀ path ∈ checked.keys, normalizeGeneratedPath path = .ok path
  parsed : ∃ draft, parseGeneratedFiles (checked.sorted keyOrder) = .ok draft ∧
    (∀ path, draft.get? path = checked.get? path) ∧
    ∀ sandbox materialized manifest, readMaterialized sandbox draft = .ok materialized →
      ∀ path content, path ≠ "skill.yaml" →
        ((filesToCommit manifest materialized).get? path = some content ↔
          path ∈ checked.keys ∧ textAt checked sandbox path = some content)

theorem lacks_congr {left right : Dict String String} (same : ∀ path, left.get? path = right.get? path)
    (path : String) : lacks left path = lacks right path := by
  rw [lacks, lacks, same]

/-- A draft whose paths a second normalization leaves alone is read back as it was checked. -/
theorem parse_checked {checked : Dict String String}
    (fixed : ∀ path ∈ checked.keys, normalizeGeneratedPath path = .ok path ∧ path ≠ "skill.yaml")
    (complete : ∀ path ∈ REQUIRED_BUILDER_FILES, lacks checked path = false) :
    ∃ draft, parseGeneratedFiles (checked.sorted keyOrder) = .ok draft ∧
      ∀ path, draft.get? path = checked.get? path := by
  obtain ⟨draft, parsed, stored⟩ := parse_files_spec (checked.sorted keyOrder).distinct
    (fun file isIn => fixed file.1 ((Dict.mem_keys_sorted keyOrder checked).mp
      (List.mem_map.mpr ⟨file, isIn, rfl⟩))) .empty (fun _ _ known => by cases known)
  have same : ∀ path, draft.get? path = checked.get? path := by
    intro path
    ext content
    rw [stored, Dict.get_empty, Dict.mem_entries, Dict.get_sorted]
    simp
  refine ⟨draft, ?_, same⟩
  have noneMissing : REQUIRED_GENERATED_FILES.filter (lacks draft) = [] := by
    rw [List.filter_eq_nil_iff]
    intro path isRequired
    rw [lacks_congr same, complete path isRequired]
    exact Bool.false_ne_true
  rw [parseGeneratedFiles, parsed]
  exact if_neg (not_not.mpr noneMissing)

/-- Reading the materialized files keeps the paths, and the manifest takes none of theirs. -/
theorem commit_checked {draft checked : Dict String String}
    (same : ∀ path, draft.get? path = checked.get? path) {sandbox : Option Sandbox}
    {materialized : Dict String String} (done : readMaterialized sandbox draft = .ok materialized)
    {manifest path content : String} (plain : path ≠ "skill.yaml") :
    (filesToCommit manifest materialized).get? path = some content ↔
      path ∈ checked.keys ∧ textAt checked sandbox path = some content := by
  have sameKeys : path ∈ draft.keys ↔ path ∈ checked.keys := by
    rw [Dict.mem_keys, Dict.mem_keys, same]
  rw [filesToCommit, Dict.get_put_other (Ne.symm plain)]
  cases sandbox with
  | none =>
    obtain rfl := Except.ok.inj done
    rw [same]
    exact ⟨fun found => ⟨Dict.mem_keys.mpr ⟨content, found⟩, found⟩, And.right⟩
  | some read =>
    have text : textAt checked (some read) path = some content ↔ read path = .ok content := by
      rw [textAt]
      cases read path <;> simp [Except.toOption]
    rw [read_paths_spec done, Dict.get_empty, sameKeys, text]
    simp

/-- The paths of checked files that were given `Snug` are as a second normalization leaves them. -/
theorem checked_fixed {files : Dict String String}
    (clean : (validateFiles files).diagnostics = []) (snug : ∀ path ∈ files.keys, Snug path) :
    ∀ path ∈ (validateFiles files).normalized.keys,
      normalizeGeneratedPath path = .ok path ∧ path ≠ "skill.yaml" := by
  obtain ⟨⟨accepted, stored⟩, -⟩ := validate_files_spec clean
  intro path isKey
  obtain ⟨content, found⟩ := Dict.mem_keys.mp isKey
  rcases (stored path content).mp found with none | ⟨file, isFile, normalized, -⟩
  · cases none
  · obtain ⟨path', normalized', allowed⟩ := accepted file isFile
    obtain rfl := Except.ok.inj (normalized.symm.trans normalized')
    refine ⟨(normalize_again normalized).mpr (snug _ (List.mem_map.mpr ⟨file, isFile, rfl⟩)), ?_⟩
    exact fun manifest => allowed (manifest ▸ List.mem_singleton_self _)

/-- Checked files that were given `Snug` paths are parsed into themselves. -/
theorem checked_parsed {files : Dict String String}
    (clean : (validateFiles files).diagnostics = []) (snug : ∀ path ∈ files.keys, Snug path) :
    ∃ draft, parseGeneratedFiles ((validateFiles files).normalized.sorted keyOrder) = .ok draft ∧
      ∀ path, draft.get? path = (validateFiles files).normalized.get? path :=
  parse_checked (checked_fixed clean snug) (validate_files_spec clean).2

/-- Every path the check accepts stays inside the draft's directory, and normalizing it again
returns it exactly if it was given without white space between its outer separators; **a set of
files that passes the check** is committed as it was checked exactly if all its paths were. -/
theorem checked_files_committed (value : String) (files : Dict String String) :
    (∀ path, normalizeBuilderPath value = .ok path →
      Relative path ∧ (normalizeBuilderPath path = .ok path ↔ Snug value)) ∧
    ((validateFiles files).diagnostics = [] →
      (Committed (validateFiles files).normalized ↔ ∀ path ∈ files.keys, Snug path)) := by
  refine ⟨fun path accepted => ⟨normalize_relative accepted, normalize_again accepted⟩,
    fun clean => ?_⟩
  obtain ⟨⟨accepted, stored⟩, -⟩ := validate_files_spec clean
  constructor
  · intro committed given isGiven
    obtain ⟨file, isFile, rfl⟩ := List.mem_map.mp isGiven
    obtain ⟨path, normalized, -⟩ := accepted file isFile
    have isKey : path ∈ (validateFiles files).normalized.keys :=
      Dict.mem_keys.mpr ⟨file.2, (stored path file.2).mpr (.inr ⟨file, isFile, normalized, rfl⟩)⟩
    exact (normalize_again normalized).mp (committed.fixed path isKey)
  · intro snug
    obtain ⟨draft, parsed, same⟩ := checked_parsed clean snug
    exact ⟨fun path isKey => (checked_fixed clean snug path isKey).1, draft, parsed, same,
      fun sandbox materialized manifest done path content plain =>
        commit_checked same done plain⟩

/-- A draft of the required files. -/
def brewFiles : Dict String String where
  entries := REQUIRED_BUILDER_FILES.map fun path => (path, "# Brew")
  distinct := by decide

theorem brew_files_committed : Committed (validateFiles brewFiles).normalized :=
  ((checked_files_committed "SKILL.md" brewFiles).2
    (List.isEmpty_iff.mp (by decide +kernel))).mpr (by decide +kernel)

/-- A draft with two files whose paths the check takes for different ones. -/
def twinFiles : Dict String String where
  entries := brewFiles.entries ++ [("SKILL.md /", "# Something else")]
  distinct := by decide

/-- A path may pass the check with white space at an end, which the second normalization trims; the
file then takes the place of another one. -/
theorem checked_files_lost :
    (¬ ∀ value path, normalizeBuilderPath value = .ok path →
      Relative path ∧ normalizeBuilderPath path = .ok path) ∧
    ¬ ∀ files, (validateFiles files).diagnostics = [] →
      Committed (validateFiles files).normalized := by
  have accepted : normalizeBuilderPath "/ a" = .ok " a" := by decide +kernel
  have changed : normalizeBuilderPath " a" = .ok "a" := by decide +kernel
  have clean : (validateFiles twinFiles).diagnostics = [] :=
    List.isEmpty_iff.mp (by decide +kernel)
  have isKey : "SKILL.md " ∈ (validateFiles twinFiles).normalized.keys := by decide +kernel
  refine ⟨fun stable => ?_, fun committed => ?_⟩
  · have same := changed.symm.trans (stable _ _ accepted).2
    exact absurd (Except.ok.inj same) (by decide)
  · have fixed := (committed _ clean).fixed _ isKey
    have trimmed : (normalizeGeneratedPath "SKILL.md ").toOption = some "SKILL.md" := by
      decide +kernel
    rw [fixed] at trimmed
    exact absurd (Option.some.inj trimmed) (by decide)

end Psop.Builder
