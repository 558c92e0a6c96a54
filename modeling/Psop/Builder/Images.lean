import Psop.Builder.Reconcile
import Psop.Lines
import Mathlib.Algebra.Ring.Nat

/-!
Linking the selected reference images into the Markdown files of a draft.

The linker goes through a text line by line. A line that mentions the path of a selected image and
is no Markdown image of it stays, and a blank line and the image follow it; a line that is an image
of the path stays alone. What follows a line is not looked at, so a mention gets another image each
time the text is linked: **`links_stay_iff`** says that linking again leaves a linked text as it is
exactly when there was nothing to link.
-/
namespace Psop.Builder.Images
open Text Lines

/-! ### The selected images -/

/-- `_mime_type_from_path` -/
def mimeTypeFromPath (path : String) : String :=
  let lowered := (lower path).toList
  let ends (extension : String) : Bool := extension.toList.isSuffixOf lowered
  if ends ".png" then "image/png"
  else if ends ".gif" then "image/gif"
  else if ends ".webp" then "image/webp"
  else if ends ".jpg" || ends ".jpeg" then "image/jpeg"
  else "application/octet-stream"

/-- `_looks_like_image_reference` -/
def looksLikeImageReference (path : String) : Bool := startsWith "image/" (mimeTypeFromPath path)

/-- `" ".join(text.split())` -/
def normalizeSpaces (cs : List Char) : List Char :=
  Paths.join ' ' (Paths.words ' ' (cs.map fun c => if isSpace c then ' ' else c))

/-- `text.rstrip()` -/
def stripRight (cs : List Char) : List Char := (stripLeft cs.reverse).reverse

/-- `_reference_image_label` -/
def referenceImageLabel (index : Nat) (value : String) : List Char :=
  let normalized := normalizeSpaces (stripChars value.toList)
  let numbered := "参考图片 ".toList ++ (toString index).toList
  if normalized = [] then numbered
  else numbered ++ '：' ::
    if 60 < normalized.length then stripRight (normalized.take 60) else normalized

structure ImageRef where
  referencePath : List Char
  label : List Char

/-- `a or b` for strings. -/
def orElse (value other : String) : String := if value = "" then other else value

/-- One step of `_build_markdown_image_refs`. -/
def imageRef (item : SelectedReferenceAsset) (index : Nat) : Option ImageRef :=
  let referencePath := strip item.referencePath
  if looksLikeImageReference referencePath then
    some { referencePath := referencePath.toList
           label := referenceImageLabel index
             (orElse item.reason (orElse item.assetId referencePath)) }
  else none

/-- `_build_markdown_image_refs` -/
def buildMarkdownImageRefs (selected : List SelectedReferenceAsset) : List ImageRef :=
  (selected.zipIdx 1).filterMap fun (item, index) => imageRef item index

/-! ### The pattern of a Markdown image -/

/-- What may be left of a text after a pattern took its beginning. -/
abbrev Pattern := List Char → List (List Char)

/-- The literal. -/
def lit (literal : String) : Pattern := fun cs =>
  if literal.toList.isPrefixOf cs then [cs.drop literal.toList.length] else []

/-- Any number of characters of a class. -/
def many (isIn : Char → Bool) : Pattern
  | [] => [[]]
  | c :: cs => (c :: cs) :: if isIn c then many isIn cs else []

def optional (p : Pattern) : Pattern := fun cs => p cs ++ [cs]

def either (p q : Pattern) : Pattern := fun cs => p cs ++ q cs

/-- One pattern after another. -/
def sequence : List Pattern → Pattern
  | [] => fun cs => [cs]
  | p :: ps => fun cs => (p cs).flatMap (sequence ps)

/-- `bool(pattern.search(cs))` -/
def search (p : Pattern) (cs : List Char) : Bool := cs.tails.any fun rest => !(p rest).isEmpty

/-- `_line_has_markdown_image_for_reference` -/
def lineHasMarkdownImage (line referencePath : List Char) : Bool :=
  search (sequence [lit "![", many (· ≠ ']'), lit "](", many isSpace, optional (lit "<"),
    lit (String.ofList referencePath), optional (lit ">"), many isSpace,
    optional (either (sequence [lit "\"", many (· ≠ '"'), lit "\""])
      (sequence [lit "'", many (· ≠ '\''), lit "'"])),
    lit ")"]) line

/-! ### Linking -/

/-- `reference_path in line` -/
def mentions (line referencePath : List Char) : Bool :=
  line.tails.any (referencePath.isPrefixOf ·)

/-- `![label](path)` -/
def imageLine (ref : ImageRef) : List Char :=
  "![".toList ++ ref.label ++ "](".toList ++ ref.referencePath ++ ")".toList

abbrev Counts := Dict (List Char) Nat

/-- `counts[path] += 1` -/
def bump (counts : Counts) (referencePath : List Char) : Counts :=
  counts.put referencePath ((counts.get? referencePath).getD 0 + 1)

/-- One image reference against one line: the counts and the references to be linked after it. -/
def matchRef (line : List Char) (found : Counts × List ImageRef) (ref : ImageRef) :
    Counts × List ImageRef :=
  if !mentions line ref.referencePath then found
  else if lineHasMarkdownImage line ref.referencePath then
    (bump found.1 ref.referencePath, found.2)
  else (found.1, found.2 ++ [ref])

/-- One line: it is put out, and an image for each reference it is to be linked to. -/
def linkLine (refs : List ImageRef) (written : List (List Char) × Counts) (line : List Char) :
    List (List Char) × Counts :=
  let (counts, matched) := refs.foldl (matchRef line) (written.2, [])
  matched.foldl
    (fun (output, counts) ref => (output ++ [[], imageLine ref], bump counts ref.referencePath))
    (written.1 ++ [line], counts)

/-- `_link_reference_images_in_markdown` -/
def linkReferenceImagesInMarkdown (content : List Char) (refs : List ImageRef) :
    List Char × Counts :=
  let zeros := refs.foldl (fun counts ref => counts.put ref.referencePath 0) Dict.empty
  let (output, counts) := (splitLines content).foldl (linkLine refs) ([], zeros)
  (joinLines output ++ tail (endsLine content), counts)

structure LinkedImage where
  filePath : String
  referencePath : String
  linkCount : Nat

/-- One file of a draft. -/
def linkFile (refs : List ImageRef) (linked : Dict String String × List LinkedImage)
    (file : String × String) : Dict String String × List LinkedImage :=
  let (updated, counts) := linkReferenceImagesInMarkdown file.2.toList refs
  (linked.1.put file.1 (String.ofList updated),
    linked.2 ++ counts.entries.filterMap fun (referencePath, count) =>
      if count ≠ 0 then some ⟨file.1, String.ofList referencePath, count⟩ else none)

/-- `_link_reference_images_in_files` -/
def linkReferenceImagesInFiles (files : Dict String String)
    (selected : List SelectedReferenceAsset) : Dict String String × List LinkedImage :=
  let refs := buildMarkdownImageRefs selected
  if refs.isEmpty then (files, []) else files.entries.foldl (linkFile refs) (Dict.empty, [])

/-! ### What linking writes -/

/-- A line mentions a reference and is no image of it. -/
def Loose (line : List Char) (ref : ImageRef) : Prop :=
  mentions line ref.referencePath = true ∧ lineHasMarkdownImage line ref.referencePath = false

instance (line : List Char) (ref : ImageRef) : Decidable (Loose line ref) :=
  inferInstanceAs (Decidable (_ ∧ _))

/-- What is written for a line. -/
def block (refs : List ImageRef) (line : List Char) : List (List Char) :=
  line :: (refs.filter (Loose line ·)).flatMap fun ref => [[], imageLine ref]

theorem matched_refs (line : List Char) (refs : List ImageRef) (found : Counts × List ImageRef) :
    (refs.foldl (matchRef line) found).2 = found.2 ++ refs.filter (Loose line ·) := by
  induction refs generalizing found with
  | nil => simp
  | cons ref refs ih =>
    rw [List.foldl_cons, ih, List.filter_cons]
    cases isMention : mentions line ref.referencePath <;>
      cases isImage : lineHasMarkdownImage line ref.referencePath <;>
      simp [matchRef, Loose, isMention, isImage]

theorem written_images (refs : List ImageRef) (written : List (List Char) × Counts) :
    (refs.foldl
      (fun (written : List (List Char) × Counts) ref =>
        (written.1 ++ [[], imageLine ref], bump written.2 ref.referencePath)) written).1 =
      written.1 ++ refs.flatMap fun ref => [[], imageLine ref] := by
  induction refs generalizing written with
  | nil => simp
  | cons ref refs ih => rw [List.foldl_cons, ih]; simp

theorem link_line_block (refs : List ImageRef) (written : List (List Char) × Counts)
    (line : List Char) : (linkLine refs written line).1 = written.1 ++ block refs line := by
  have all := matched_refs line refs (written.2, [])
  rw [List.nil_append] at all
  refine (written_images _ _).trans ?_
  rw [all, block]
  simp

theorem linked_lines (refs : List ImageRef) (lines : List (List Char))
    (written : List (List Char) × Counts) :
    (lines.foldl (linkLine refs) written).1 = written.1 ++ lines.flatMap (block refs) := by
  induction lines generalizing written with
  | nil => simp
  | cons line lines ih => rw [List.foldl_cons, ih, link_line_block]; simp

/-- The linked text. -/
def link (refs : List ImageRef) (content : List Char) : List Char :=
  (linkReferenceImagesInMarkdown content refs).1

theorem link_eq (refs : List ImageRef) (content : List Char) :
    link refs content =
      joinLines ((splitLines content).flatMap (block refs)) ++ tail (endsLine content) := by
  have lines := linked_lines refs (splitLines content)
    ([], refs.foldl (fun counts ref => counts.put ref.referencePath 0) Dict.empty)
  rw [List.nil_append] at lines
  rw [← lines]
  rfl

/-- Each file is linked by itself. -/
theorem linked_files {files : Dict String String} {selected : List SelectedReferenceAsset}
    (some : buildMarkdownImageRefs selected ≠ []) :
    (linkReferenceImagesInFiles files selected).1.entries =
      files.entries.map fun (path, content) =>
        (path, String.ofList (link (buildMarkdownImageRefs selected) content.toList)) := by
  suffices general : ∀ (entries : List (String × String))
      (linked : Dict String String × List LinkedImage),
      (entries.map Prod.fst).Nodup → (∀ entry ∈ entries, entry.1 ∉ linked.1.keys) →
      (entries.foldl (linkFile (buildMarkdownImageRefs selected)) linked).1.entries =
        linked.1.entries ++ entries.map fun (path, content) =>
          (path, String.ofList (link (buildMarkdownImageRefs selected) content.toList)) by
    rw [linkReferenceImagesInFiles, if_neg (by simpa using some)]
    exact general files.entries (Dict.empty, []) files.distinct fun _ _ => nofun
  intro entries
  induction entries with
  | nil => intro linked _ _; simp
  | cons entry entries ih =>
    intro linked distinct fresh
    obtain ⟨new, rest⟩ := List.nodup_cons.mp distinct
    rw [List.foldl_cons, ih _ rest]
    · rw [linkFile, Dict.entries_put (fresh entry List.mem_cons_self), List.map_cons,
        List.append_assoc]
      rfl
    · intro other isOther known
      rcases Dict.mem_keys_put.mp known with same | before
      · exact new (same ▸ List.mem_map_of_mem isOther)
      · exact fresh other (List.mem_cons_of_mem _ isOther) before

/-! ### Labels and paths -/

theorem space_of_break {c : Char} (ends : isBreak c = true) : isSpace c = true ∧ c ≠ ' ' := by
  have isSpaced : isSpace c = true := by
    simp only [isBreak, isSpace, Bool.or_eq_true, Bool.and_eq_true, decide_eq_true_eq,
      beq_iff_eq] at ends ⊢
    omega
  refine ⟨isSpaced, ?_⟩
  rintro rfl
  exact absurd ends (by decide)

theorem plain_of_visible {c : Char} (visible : isSpace c = false) : isBreak c = false := by
  cases ends : isBreak c with
  | false => rfl
  | true => rw [(space_of_break ends).1] at visible; cases visible

theorem normalized_plain (cs : List Char) : Plain (normalizeSpaces cs) := by
  intro c isIn
  rcases Paths.mem_join isIn with rfl | ⟨word, isWord, inWord⟩
  · rfl
  obtain ⟨d, -, rfl⟩ := List.mem_map.mp (Paths.mem_of_word isWord inWord)
  split
  · rfl
  · exact plain_of_visible (Bool.not_eq_true _ ▸ ‹_›)

theorem stripRight_subset (cs : List Char) : stripRight cs ⊆ cs := by
  intro c isIn
  rw [stripRight, stripLeft_eq, List.mem_reverse] at isIn
  exact List.mem_reverse.mp ((List.dropWhile_suffix _).subset isIn)

theorem label_plain (index : Nat) (value : String) : Plain (referenceImageLabel index value) := by
  have words := normalized_plain (stripChars value.toList)
  have numbered : Plain ("参考图片 ".toList ++ (toString index).toList) := by
    intro c isIn
    rcases List.mem_append.mp isIn with isText | isDigit
    · have text : ("参考图片 ".toList.all fun d => !isBreak d) = true := by decide
      simpa using List.all_eq_true.mp text c isText
    · exact plain_of_visible (isSpace_of_isDigit (isDigit_of_numeral isDigit))
  rw [referenceImageLabel]
  split
  · exact numbered
  intro c isIn
  rcases List.mem_append.mp isIn with inNumber | inRest
  · exact numbered c inNumber
  rcases List.mem_cons.mp inRest with rfl | inWords
  · decide
  split at inWords
  · exact words c (List.mem_of_mem_take (stripRight_subset _ inWords))
  · exact words c inWords

variable {selected : List SelectedReferenceAsset} {ref : ImageRef}

theorem image_ref_some {item : SelectedReferenceAsset} {index : Nat}
    (made : imageRef item index = some ref) :
    looksLikeImageReference (strip item.referencePath) = true ∧
      ref.referencePath = (strip item.referencePath).toList ∧
      ∃ value, ref.label = referenceImageLabel index value := by
  unfold imageRef at made
  dsimp only at made
  cases isImage : looksLikeImageReference (strip item.referencePath) with
  | false =>
    rw [isImage, if_neg Bool.false_ne_true] at made
    cases made
  | true =>
    rw [isImage, if_pos rfl] at made
    have same := (Option.some.inj made).symm
    refine ⟨rfl, by rw [same], orElse item.reason (orElse item.assetId (strip item.referencePath)), ?_⟩
    rw [same]

/-- Every reference that is linked has a path and a label of one line. -/
theorem image_ref (isRef : ref ∈ buildMarkdownImageRefs selected) :
    ref.referencePath ≠ [] ∧ Plain ref.label := by
  obtain ⟨⟨item, index⟩, -, made⟩ := List.mem_filterMap.mp isRef
  obtain ⟨isImage, isPath, value, isLabel⟩ := image_ref_some made
  constructor
  · intro empty
    have none : looksLikeImageReference "" = false := by decide
    rw [String.toList_eq_nil_iff.mp (isPath.symm.trans empty), none] at isImage
    cases isImage
  · rw [isLabel]
    exact label_plain index value

theorem mentioned_subset {line referencePath : List Char}
    (isMention : mentions line referencePath = true) : referencePath ⊆ line := by
  obtain ⟨rest, isTail, lead⟩ := List.any_eq_true.mp isMention
  exact fun c isIn =>
    ((List.mem_tails _ _).mp isTail).subset ((List.isPrefixOf_iff_prefix.mp lead).subset isIn)

theorem not_loose_empty (some : ref.referencePath ≠ []) : ¬Loose [] ref := by
  rintro ⟨isMention, -⟩
  cases path : ref.referencePath with
  | nil => exact some path
  | cons c cs =>
    have isIn := mentioned_subset isMention (path ▸ List.mem_cons_self)
    cases isIn

theorem image_line_plain {line : List Char} (plain : Plain line) (label : Plain ref.label)
    (isMention : mentions line ref.referencePath = true) : Plain (imageLine ref) := by
  have marks : ("![".toList ++ "](".toList ++ ")".toList).all (fun c => !isBreak c) = true := by decide
  have fixed : ∀ c ∈ "![".toList ++ "](".toList ++ ")".toList, isBreak c = false := fun c isIn => by
    simpa using List.all_eq_true.mp marks c isIn
  intro c isIn
  simp only [imageLine, List.mem_append] at isIn fixed
  rcases isIn with (((opening | inLabel) | middle) | inPath) | closing
  · exact fixed c (.inl (.inl opening))
  · exact label c inLabel
  · exact fixed c (.inl (.inr middle))
  · exact plain c (mentioned_subset isMention inPath)
  · exact fixed c (.inr closing)

/-! ### Blocks -/

variable {refs : List ImageRef} {line : List Char}

theorem block_plain (labels : ∀ ref ∈ refs, Plain ref.label) (plain : Plain line) :
    ∀ other ∈ block refs line, Plain other := by
  intro other isIn
  rcases List.mem_cons.mp isIn with rfl | added
  · exact plain
  obtain ⟨ref, isMatched, isImage⟩ := List.mem_flatMap.mp added
  obtain ⟨isRef, isLoose⟩ := List.mem_filter.mp isMatched
  rcases List.mem_cons.mp isImage with rfl | isLine
  · exact nofun
  · rw [List.mem_singleton.mp isLine]
    exact image_line_plain plain (labels ref isRef) (of_decide_eq_true isLoose).1

/-- Nothing is written after a line with nothing to link. -/
theorem block_quiet (quiet : ∀ ref ∈ refs, ¬Loose line ref) : block refs line = [line] := by
  have none : refs.filter (Loose line ·) = [] :=
    List.filter_eq_nil_iff.mpr fun ref isRef => by simpa using quiet ref isRef
  rw [block, none, List.flatMap_nil]

theorem blocks_quiet {lines : List (List Char)}
    (quiet : ∀ line ∈ lines, ∀ ref ∈ refs, ¬Loose line ref) : lines.flatMap (block refs) = lines := by
  induction lines with
  | nil => rfl
  | cons line lines ih =>
    rw [List.flatMap_cons, block_quiet (quiet line List.mem_cons_self),
      ih fun other isIn => quiet other (List.mem_cons_of_mem _ isIn), List.singleton_append]

/-- The characters of lines with a line end each. -/
def size (lines : List (List Char)) : Nat := (lines.map fun line => line.length + 1).sum

@[simp] theorem size_cons (line : List Char) (lines : List (List Char)) :
    size (line :: lines) = line.length + 1 + size lines := by simp [size]

@[simp] theorem size_append (lines others : List (List Char)) :
    size (lines ++ others) = size lines + size others := by simp [size]

theorem block_size (refs : List ImageRef) (line : List Char) :
    line.length + 1 ≤ size (block refs line) := by
  rw [block, size_cons]
  omega

theorem loose_block_size (isRef : ref ∈ refs) (isLoose : Loose line ref) :
    line.length + 1 < size (block refs line) := by
  have isMatched : ref ∈ refs.filter (Loose line ·) :=
    List.mem_filter.mpr ⟨isRef, decide_eq_true isLoose⟩
  rw [block, size_cons]
  cases matched : refs.filter (Loose line ·) with
  | nil => rw [matched] at isMatched; cases isMatched
  | cons first rest =>
    simp only [List.flatMap_cons, List.cons_append, List.nil_append, size_cons]
    omega

/-- A line with something to link makes a text longer. -/
theorem blocks_size {lines : List (List Char)} :
    size lines ≤ size (lines.flatMap (block refs)) ∧
      ∀ line ∈ lines, ∀ ref ∈ refs, Loose line ref → size lines < size (lines.flatMap (block refs)) := by
  induction lines with
  | nil => exact ⟨Nat.le_refl _, nofun⟩
  | cons first lines ih =>
    have least := block_size refs first
    rw [List.flatMap_cons, size_append, size_cons]
    refine ⟨by omega, fun line isLine ref isRef isLoose => ?_⟩
    rcases List.mem_cons.mp isLine with rfl | later
    · have more := loose_block_size isRef isLoose
      omega
    · have more := ih.2 line later ref isRef isLoose
      omega

/-! ### Linking again -/

/-- What linking is to do: each line of the linked text that mentions an image without being one is
followed by the image, and a linked text is linked. -/
structure Right (refs : List ImageRef) (content : List Char) : Prop where
  followed : ∀ before line after, splitLines (link refs content) = before ++ line :: after →
    ∀ ref ∈ refs, Loose line ref → ∃ between rest, after = between ++ imageLine ref :: rest ∧
      ∀ other ∈ between, other = [] ∨ ∃ ref ∈ refs, other = imageLine ref
  stays : link refs (link refs content) = link refs content

/-- No line of a text has anything to link. -/
def Quiet (refs : List ImageRef) (content : List Char) : Prop :=
  ∀ line ∈ splitLines content, ∀ ref ∈ refs, ¬Loose line ref

section Again
variable (proper : ∀ ref ∈ refs, ref.referencePath ≠ [] ∧ Plain ref.label) {content : List Char}
include proper

theorem blocks_plain (content : List Char) :
    ∀ line ∈ (splitLines content).flatMap (block refs), Plain line := by
  intro line isIn
  obtain ⟨source, isLine, inBlock⟩ := List.mem_flatMap.mp isIn
  exact block_plain (fun ref isRef => (proper ref isRef).2) (split_lines_plain isLine) line inBlock

/-- A linked text is its lines joined. -/
theorem linked_join (content : List Char) :
    joinLines (splitLines (link refs content)) ++ tail (endsLine (link refs content)) =
      link refs content := by
  refine join_split fun c isIn ends => ?_
  rw [link_eq] at isIn
  exact join_breaks (blocks_plain proper content) _ isIn ends

/-- The lines of a linked text that are not empty are those that were written. -/
theorem mem_linked (some : line ≠ []) :
    line ∈ splitLines (link refs content) ↔ line ∈ (splitLines content).flatMap (block refs) := by
  rw [link_eq]
  exact mem_split_join (blocks_plain proper content) _ some

/-- A text with nothing to link has nothing to link when it is linked. -/
theorem quiet_linked (quiet : Quiet refs content) : Quiet refs (link refs content) := by
  intro line isLine ref isRef isLoose
  have some : line ≠ [] := by
    rintro rfl
    exact not_loose_empty (proper ref isRef).1 isLoose
  have written := (mem_linked proper some).mp isLine
  rw [blocks_quiet quiet] at written
  exact quiet line written ref isRef isLoose

/-- A line with something to link is there, and has it, when the text is linked. -/
theorem loose_linked (isLine : line ∈ splitLines content) (isRef : ref ∈ refs)
    (isLoose : Loose line ref) : line ∈ splitLines (link refs content) := by
  have some : line ≠ [] := by
    rintro rfl
    exact not_loose_empty (proper ref isRef).1 isLoose
  exact (mem_linked proper some).mpr (List.mem_flatMap.mpr ⟨line, isLine, List.mem_cons_self⟩)

/-- Linking a text with something to link again writes more. -/
theorem linked_again_longer (isLine : line ∈ splitLines (link refs content)) (isRef : ref ∈ refs)
    (isLoose : Loose line ref) : link refs (link refs content) ≠ link refs content := by
  intro same
  have lines : splitLines (link refs content) ≠ [] := List.ne_nil_of_mem isLine
  have more := blocks_size.2 line isLine ref isRef isLoose
  have blocks : (splitLines (link refs content)).flatMap (block refs) ≠ [] :=
    List.ne_nil_of_mem (List.mem_flatMap.mpr ⟨line, isLine, List.mem_cons_self⟩)
  have lengths := congrArg List.length (same.trans (linked_join proper content).symm)
  rw [link_eq refs (link refs content), List.length_append, List.length_append] at lengths
  have before := join_length lines
  have after := join_length blocks
  rw [size, size] at more
  omega

theorem right_iff_quiet : Right refs content ↔ Quiet refs content := by
  constructor
  · intro right line isLine ref isRef isLoose
    exact linked_again_longer proper (loose_linked proper isLine isRef isLoose) isRef isLoose
      right.stays
  · intro quiet
    have still := quiet_linked proper quiet
    refine ⟨fun before line after lines ref isRef isLoose => ?_, ?_⟩
    · exact absurd isLoose (still line (by rw [lines]; simp) ref isRef)
    · rw [link_eq refs (link refs content), blocks_quiet still]
      exact linked_join proper content

end Again

/-- **Linking the images again**: the linked text stays as it is, its mentions followed by their
images, exactly when no line mentioned an image without being one. -/
theorem links_stay_iff (selected : List SelectedReferenceAsset) (content : List Char) :
    Right (buildMarkdownImageRefs selected) content ↔
      Quiet (buildMarkdownImageRefs selected) content :=
  right_iff_quiet fun _ isRef => image_ref isRef

/-- A mention gets its image a second time. -/
theorem mention_linked_twice :
    let selected := [(⟨"a1", "m1", "references/a.png", "接口", ["s1"]⟩ : SelectedReferenceAsset)]
    let refs := buildMarkdownImageRefs selected
    let content := "See references/a.png".toList
    let image := "![参考图片 1：接口](references/a.png)"
    link refs content = ("See references/a.png\n\n" ++ image).toList ∧
      link refs (link refs content) =
        ("See references/a.png\n\n" ++ image ++ "\n\n" ++ image).toList ∧
      ¬Right refs content := by
  have first : link (buildMarkdownImageRefs
      [(⟨"a1", "m1", "references/a.png", "接口", ["s1"]⟩ : SelectedReferenceAsset)])
      "See references/a.png".toList =
        "See references/a.png\n\n![参考图片 1：接口](references/a.png)".toList := by
    decide +kernel
  have again : link (buildMarkdownImageRefs
      [(⟨"a1", "m1", "references/a.png", "接口", ["s1"]⟩ : SelectedReferenceAsset)])
      "See references/a.png\n\n![参考图片 1：接口](references/a.png)".toList =
        ("See references/a.png\n\n![参考图片 1：接口](references/a.png)" ++
          "\n\n![参考图片 1：接口](references/a.png)").toList := by
    decide +kernel
  refine ⟨first, (congrArg (link _) first).trans again, fun right => ?_⟩
  have same := right.stays
  rw [first, again] at same
  exact absurd same (by decide +kernel)

end Psop.Builder.Images
