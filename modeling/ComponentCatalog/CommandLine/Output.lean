import ComponentCatalog.Description.Document
import ComponentCatalog.Json.Printer
import ComponentCatalog.Resource.Layer

/-!
# Outputs

What the program prints: a description as JSON or as a short summary, and the list of metadata.
-/

set_option autoImplicit false

namespace ComponentCatalog.Output

/-- Lines of text. -/
def lines (l : List String) : String := String.join (l.map (· ++ "\n"))

/-- The text with blanks at its end up to a width. -/
def padRight (width : Nat) (text : String) : String :=
  text ++ String.ofList (List.replicate (width - text.length) ' ')

/-- A line of a summary. -/
def field (label value : String) : String := padRight 13 (label ++ ":") ++ value

/-- The line for a way to make a component. -/
def variant (c : Creation) : String :=
  "  variant:   " ++ c.id?.getD "<default>" ++ " " ++ c.name?.getD ""

/-- The line for a property. -/
def property (p : Property) : String :=
  "  " ++ padRight 24 p.title ++ " " ++ p.category.word ++ " " ++ p.id

/-- A truth value in words. -/
def truth (b : Bool) : String := if b then "true" else "false"

/-- The summary of a description. -/
def summary (d : Description) : String :=
  lines <|
    [field "key" d.key.name, field "toolkit" ((d.toolkit?.map (·.id)).getD "-"),
      field "model" (d.modelClass?.getD "-")] ++
    (d.icon?.map fun icon ↦ field "icon" icon.path).toList ++
    (d.creationDefault?.map fun c ↦ field "creation" (c.source?.getD "-")).toList ++
    d.creations.map variant ++
    [field "properties" (toString d.properties.length)] ++
    d.properties.map property ++
    [field "methods" (toString d.methods.length), field "cached" (truth d.cached)]

/-- A description as JSON. -/
def json (d : Description) : String := d.toJson.pretty ++ "\n"

/-- The name of a bundle in a list. -/
def bundleName (b : Bundle) : String := b.id?.getD "<project>"

/-- The list of the metadata in bundles. -/
def metadata (files : FileTree) (bundles : List Bundle) : String :=
  lines <| bundles.flatMap fun b ↦
    (b.entriesWithSuffix files metadataSuffix).map fun path ↦ bundleName b ++ "\t" ++ path

end ComponentCatalog.Output
