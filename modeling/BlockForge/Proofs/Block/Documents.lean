/-
# Descriptions in documents

A description that breaks no rule is written as a document, and the document is loaded as the same
description. Nothing of it is lost on the way: there is no null among its members, the sizes of its
titles are numbers of 64 bits, and its doubles are read from their shortest digits by one rounding.
The tables of a document stand in another place than the members that they come from, and the
loader finds every member by its key.
-/

import BlockForge.Proofs.Toml.Tree

namespace BlockForge.Description

open BlockForge.Json

/-- A description that breaks no rule is written as a document, which is loaded as the same
description. Its strings, its options and its numbers may be any, infinite ones included. -/
theorem ofTomlText_text {block : Description} (valid : block.issues = []) (fits : block.Fits) :
    (block.value.IsToml ∧ ∃ entries, Toml.ofData block.value = some (.table entries) ∧
      block.text .toml = String.ofList (Toml.documentChars entries)) ∧
    ofTomlText (block.text .toml) = .ok block := by
  have isToml := fits.nested isToml_nesting
  obtain ⟨entries, read, data, written, found, holds⟩ :=
    Toml.exists_readDocument?_documentOf (by decide : 6 ≤ Toml.greatestDepth)
      (fits.nested Toml.tables_nesting)
  have text : block.text .toml = String.ofList (Toml.documentChars entries) :=
    congrArg String.ofList written
  have loaded : Block.readDescription .table (Toml.Value.table read).node = .ok block := by
    rw [Block.readDescription_eq keeping_tabled fits (Origin.admits_of_unbounded rfl 6) holds,
      withNumbers_some]
  refine ⟨⟨isToml, entries, data, text⟩, ?_⟩
  simp only [text, ofTomlText, String.toList_ofList, found, loaded]
  rw [accepted, valid]
  rfl

/-- A block with options of both forms, with empty lists, a title and a repeater, with strings in
every style, and with a slider some of whose numbers JSON does not have. -/
def galleryBlock : Description where
  blockName := "Gallery"
  template := "gallery.tpl"
  code := "cpb_gallery"
  displayName := "A \"gallery\""
  about := "It's a \"gallery\"\nwith '''lines'''\r"
  tab := ""
  icon := "C:\\icons"
  hasRepeater := true
  fields := [
    ⟨"opacity", "Opacity", none, .slider ⟨some .nan, some (.infinite true),
      some (.finite true .zero), some (.finite false ⟨1, 0, by decide⟩)⟩⟩,
    ⟨"heading", "'Heading'", some true,
      .title (some { classes := ["wide", "it's \"so\""], value := "\x00" })⟩,
    ⟨"sizes", "Sizes\n", some false, .multiselect (some [])
      (some [.plain "small", .labeled "large" "'''\"\"\"", .plain ""])⟩,
    ⟨"shapes", "Shapes", none,
      .select none (some [.labeled "round" "Round", .labeled "square" "Square"])⟩,
    ⟨"colours", "Colours", none, .radioGroup (some "red") (some [])⟩]
  repeater := some {
    label := "Picture"
    nameFrom := "caption"
    fields := [⟨"caption", "Caption", none, .editor (some .vuequill) none⟩] }

theorem ofTomlText_text_galleryBlock :
    (galleryBlock.issues = [] ∧ galleryBlock.Fits) ∧
    (galleryBlock.value.IsToml ∧ ∃ entries,
      Toml.ofData galleryBlock.value = some (.table entries) ∧
      galleryBlock.text .toml = String.ofList (Toml.documentChars entries)) ∧
    ofTomlText (galleryBlock.text .toml) = .ok galleryBlock := by
  have valid : galleryBlock.issues = [] := by decide +kernel
  have fits : galleryBlock.Fits := by
    simp [Fits, allFields, galleryBlock, FieldKind.Fits, fitsSigned64]
  exact ⟨⟨valid, fits⟩, ofTomlText_text valid fits⟩

end BlockForge.Description
