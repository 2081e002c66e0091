import ComponentCatalog.Description.Key

/-!
# Bundles keep to their folders

A bundle in a folder is asked for paths, and many of them are made of names that come from
elsewhere: of class names, of the identifiers of creations, of the signatures of methods.  **What is
found at a relative path lies below the folder** (`Locator.ofBundles_keeps`): its file is reached by
going to the folder and on from there through the names in the path, of which none leads upwards.

That the path is relative is all that is asked of it, and it is needed: an absolute path stands for
itself, so it leads out of the folder without a segment `..`
(`Locator.ofBundles_finds_outside`).  The paths that are made of names are relative unless the name
of the class that they start with begins with a slash, or with a dot, which becomes one.
-/

set_option autoImplicit false

namespace ComponentCatalog

/-! ## Paths -/

namespace Path

variable {folder path : String}

/-- The names that a path leads through. -/
def names (path : String) : List String := (segments path).filter fun s ↦ s != "" && s != "."

theorem segments_ne_nil (path : String) : segments path ≠ [] :=
  mt List.map_eq_nil_iff.mp (List.splitOn_ne_nil '/' path.toList)

theorem isAbsolute_append {first : String} (h : first ≠ "") (rest : String) :
    isAbsolute (first ++ rest) = isAbsolute first := by
  obtain ⟨c, cs, hfirst⟩ := List.exists_cons_of_ne_nil (mt String.toList_eq_nil_iff.mp h)
  rw [isAbsolute, isAbsolute, String.toList_append, hfirst]
  rfl

theorem isAbsolute_append_eq_false {first rest : String} (hfirst : isAbsolute first = false)
    (hrest : isAbsolute rest = false) : isAbsolute (first ++ rest) = false := by
  by_cases hempty : first = ""
  · rw [hempty, String.empty_append, hrest]
  · rw [isAbsolute_append hempty, hfirst]

theorem segments_of_toList_eq {before after : List Char}
    (h : path.toList = before ++ '/' :: after) :
    segments path = (before.splitOn '/').map String.ofList ++
      (after.splitOn '/').map String.ofList := by
  rw [segments, Text.split, h, List.splitOn_append_cons_self, List.map_append]

/-- A relative path is joined to a folder segment by segment; the folder can have an empty segment
more, for a slash at its end. -/
theorem segments_join (hpath : isAbsolute path = false) (folder : String) :
    ∃ before, segments (join folder path) = before ++ segments path ∧
      (segments folder = before ∨ segments folder = before ++ [""]) := by
  rw [join, hpath, Bool.false_or]
  split
  · rename_i hempty
    rw [String.isEmpty_iff.mp hempty]
    exact ⟨[], rfl, .inr rfl⟩
  · split
    · rename_i hslash
      obtain ⟨before, hfolder⟩ := List.getLast?_eq_some_iff.mp (eq_of_beq hslash)
      have hjoin : (folder ++ path).toList = before ++ '/' :: path.toList := by
        rw [String.toList_append, hfolder, List.append_assoc]
        rfl
      exact ⟨_, segments_of_toList_eq hjoin, .inr (segments_of_toList_eq hfolder)⟩
    · have hjoin : (folder ++ "/" ++ path).toList = folder.toList ++ '/' :: path.toList := by
        rw [String.toList_append, String.toList_append, List.append_assoc]
        rfl
      exact ⟨_, segments_of_toList_eq hjoin, .inl rfl⟩

theorem isAbsolute_join (hpath : isAbsolute path = false) (folder : String) :
    isAbsolute (join folder path) = isAbsolute folder := by
  rw [join, hpath, Bool.false_or]
  split
  · rename_i hempty
    rw [hpath, String.isEmpty_iff.mp hempty]
    rfl
  · rename_i hne
    have hfolder : folder ≠ "" := mt String.isEmpty_iff.mpr hne
    split
    · exact isAbsolute_append hfolder path
    · rw [String.append_assoc, isAbsolute_append hfolder]

theorem names_join (hpath : isAbsolute path = false) (folder : String) :
    names (join folder path) = names folder ++ names path := by
  obtain ⟨before, hjoin, hfolder | hfolder⟩ := segments_join hpath folder
  · rw [names, hjoin, List.filter_append, names, hfolder, names]
  · rw [names, hjoin, List.filter_append, names, hfolder, List.filter_append, names]
    simp

end Path

/-! ## Files -/

namespace FileTree

variable {files : FileTree} {folder path : String} {here there : List String}
  {segments : List String}

/-- A file lies below a folder, where the names in a path lead to. -/
structure LiesBelow (files : FileTree) (folder path file : String) : Prop where
  isAbsolute_eq : Path.isAbsolute file = Path.isAbsolute folder
  names_eq : Path.names file = Path.names folder ++ Path.names path
  /-- No name leads upwards. -/
  downwards : ".." ∉ Path.names path
  /-- So the plain form of the folder's path starts that of the file's path. -/
  resolves : ∃ here, files.resolve? folder = some here ∧
    files.resolve? file = some (here ++ Path.names path)

theorem follow_eq_some_iff {segment : String} :
    files.follow here segment = some there ↔ files.isFolder here ∧ step here segment = there := by
  rw [follow]
  split <;> simp [*]

theorem foldlM_follow_cons {segment : String}
    (h : (segment :: segments).foldlM files.follow here = some there) :
    files.isFolder here ∧ segments.foldlM files.follow (step here segment) = some there := by
  rw [List.foldlM_cons] at h
  obtain ⟨next, hnext, hrest⟩ := Option.bind_eq_some_iff.mp h
  obtain ⟨hfolder, rfl⟩ := follow_eq_some_iff.mp hnext
  exact ⟨hfolder, hrest⟩

/-- Where no segment leads upwards, the way goes on through the names. -/
theorem eq_append_of_foldlM (hup : ".." ∉ segments)
    (h : segments.foldlM files.follow here = some there) :
    there = here ++ segments.filter fun s ↦ s != "" && s != "." := by
  induction segments generalizing here with
  | nil =>
    obtain rfl := Option.some.inj h
    exact (List.append_nil here).symm
  | cons segment segments ih =>
    have hne : segment ≠ ".." := (List.ne_of_not_mem_cons hup).symm
    have hstep : step here segment = here ++ [segment].filter fun s ↦ s != "" && s != "." := by
      rw [step, if_neg hne]
      split
      · rename_i hskipped
        obtain rfl | rfl := hskipped <;> simp
      · rename_i hname
        obtain ⟨hempty, hdot⟩ := not_or.mp hname
        simp [hempty, hdot]
    rw [ih (List.not_mem_of_not_mem_cons hup) (foldlM_follow_cons h).2, hstep, List.append_assoc,
      ← List.filter_append, List.singleton_append]

/-- The way of a joined path leads through the folder. -/
theorem exists_resolve?_of_join (hpath : Path.isAbsolute path = false)
    (h : files.resolve? (Path.join folder path) = some there) :
    ∃ here, files.resolve? folder = some here ∧
      (Path.segments path).foldlM files.follow here = some there := by
  have hstart : files.start (Path.join folder path) = files.start folder := by
    rw [start, start, Path.isAbsolute_join hpath]
  obtain ⟨before, hjoin, hfolder⟩ := Path.segments_join hpath folder
  rw [resolve?, hstart, hjoin, List.foldlM_append] at h
  obtain ⟨here, hbefore, hrest⟩ := Option.bind_eq_some_iff.mp h
  refine ⟨here, ?_, hrest⟩
  obtain hfolder | hfolder := hfolder
  · rw [resolve?, hfolder, hbefore]
  · -- The way goes on from the folder, so the folder's path may end in a slash.
    obtain ⟨segment, rest, hsegments⟩ := List.exists_cons_of_ne_nil (Path.segments_ne_nil path)
    rw [hsegments] at hrest
    have hlast : files.follow here "" = some here :=
      follow_eq_some_iff.mpr ⟨(foldlM_follow_cons hrest).1, rfl⟩
    rw [resolve?, hfolder, List.foldlM_append, hbefore, Option.bind_eq_bind, Option.bind_some,
      List.foldlM_cons, hlast]
    rfl

/-- **A relative path that does not lead upwards leads below the folder that it is joined to.** -/
theorem liesBelow_join (hpath : Path.isAbsolute path = false) (hup : ".." ∉ Path.segments path)
    (h : files.resolve? (Path.join folder path) = some there) :
    files.LiesBelow folder path (Path.join folder path) where
  isAbsolute_eq := Path.isAbsolute_join hpath folder
  names_eq := Path.names_join hpath folder
  downwards := fun hmem ↦ hup (List.mem_filter.mp hmem).1
  resolves := by
    obtain ⟨here, hhere, hrest⟩ := exists_resolve?_of_join hpath h
    exact ⟨here, hhere, eq_append_of_foldlM hup hrest ▸ h⟩

end FileTree

/-! ## Bundles -/

namespace Bundle

variable {files : FileTree} {b : Bundle} {path : String} {location : Location}

/-- A resource of a bundle is where the bundle has its files: in its folder or in its memory. -/
inductive Keeps (files : FileTree) (b : Bundle) (path : String) : Location → Prop where
  | file {folder file : String} {content : Bytes} (hroot : b.root = .folder folder)
      (hfile : files.LiesBelow folder path file) (hcontent : files.read? file = some content) :
      Keeps files b path (.file file (some content))
  | memory {entries : NameMap Bytes} {content : Bytes} (hroot : b.root = .memory entries)
      (hcontent : entries.get? path = some content) : Keeps files b path (.memory content)

theorem keeps_of_locate (hpath : Path.isAbsolute path = false)
    (h : b.locate files path = some location) : b.Keeps files path location := by
  rw [locate] at h
  split at h
  · cases h
  · rename_i hup
    have hup : ".." ∉ Path.segments path := by simpa using hup
    cases hroot : b.root with
    | folder folder =>
      rw [hroot] at h
      obtain ⟨content, hcontent, rfl⟩ := Option.map_eq_some_iff.mp h
      have hread := hcontent
      rw [FileTree.read?] at hread
      split at hread
      · cases hread
      · obtain ⟨there, hthere, -⟩ := Option.bind_eq_some_iff.mp hread
        exact .file hroot (FileTree.liesBelow_join hpath hup hthere) hcontent
    | memory entries =>
      rw [hroot] at h
      obtain ⟨content, hcontent, rfl⟩ := Option.map_eq_some_iff.mp h
      exact .memory hroot hcontent

end Bundle

/-! ## Paths made of names -/

namespace ClassName

variable {name : String}

/-- Whether the path of a class starts with a slash, by the name of the class. -/
def startsWithSlash (name : String) : Bool :=
  name.toList.head? == some '/' || name.toList.head? == some '.'

theorem isAbsolute_resourcePath (h : startsWithSlash name = false) :
    Path.isAbsolute (resourcePath name) = false := by
  rw [startsWithSlash] at h
  rw [Path.isAbsolute, resourcePath, replace, String.toList_ofList, List.head?_map]
  cases hhead : name.toList.head? with
  | none => rfl
  | some c =>
    obtain ⟨hslash, hdot⟩ : c ≠ '/' ∧ c ≠ '.' := by simpa [hhead] using h
    simp [hslash, hdot]

theorem startsWithSlash_package (h : startsWithSlash name = false) :
    startsWithSlash (package name) = false := by
  have hsuffix : (name.toList.reverse.dropWhile (· != '.')).drop 1 <:+ name.toList.reverse :=
    (List.drop_suffix 1 _).trans (List.dropWhile_suffix _)
  have hprefix : (package name).toList <+: name.toList := by
    rw [package, String.toList_ofList, ← List.reverse_suffix, List.reverse_reverse]
    exact hsuffix
  obtain ⟨rest, hrest⟩ := hprefix
  rw [startsWithSlash] at h ⊢
  cases hpackage : (package name).toList with
  | nil => rfl
  | cons c cs =>
    rw [← hrest, hpackage] at h
    exact h

end ClassName

namespace Key

/-- The class whose path the path of a key's metadata resource starts with. -/
def outermost : Key → String
  | pure c => c
  | contextual _ host _ => host.outermost

theorem isAbsolute_descriptionPath {key : Key}
    (h : ClassName.startsWithSlash key.outermost = false) :
    Path.isAbsolute key.descriptionPath = false := by
  have hpath : Path.isAbsolute key.resourcePath = false := by
    induction key with
    | pure c => exact ClassName.isAbsolute_resourcePath h
    | contextual c host suffix ih =>
      have hhost : Path.isAbsolute (host.resourcePath ++ ".") = false :=
        Path.isAbsolute_append_eq_false (ih h) rfl
      have hne : host.resourcePath ++ "." ≠ "" := by simp
      exact (Path.isAbsolute_append hne suffix).trans hhost
  exact Path.isAbsolute_append_eq_false hpath rfl

end Key

namespace Locator

theorem isAbsolute_markerPath {name marker : String}
    (hname : ClassName.startsWithSlash name = false) (hmarker : Path.isAbsolute marker = false) :
    Path.isAbsolute (markerPath name marker) = false := by
  have hpackage : Path.isAbsolute (ClassName.resourcePath (ClassName.package name)) = false :=
    ClassName.isAbsolute_resourcePath (ClassName.startsWithSlash_package hname)
  rw [markerPath]
  split
  · exact hmarker
  · rename_i hne
    rw [String.append_assoc, Path.isAbsolute_append (mt String.isEmpty_iff.mpr hne), hpackage]

/-- The path of an icon beside a class. -/
def iconPath (name suffix extension : String) : String :=
  ClassName.resourcePath name ++ suffix ++ "." ++ extension

theorem isAbsolute_iconPath {name suffix : String} (extension : String)
    (hname : ClassName.startsWithSlash name = false) (hsuffix : Path.isAbsolute suffix = false) :
    Path.isAbsolute (iconPath name suffix extension) = false := by
  have hpath : Path.isAbsolute (ClassName.resourcePath name ++ suffix) = false :=
    Path.isAbsolute_append_eq_false (ClassName.isAbsolute_resourcePath hname) hsuffix
  rw [iconPath, String.append_assoc]
  refine Path.isAbsolute_append_eq_false hpath ?_
  rw [Path.isAbsolute_append (by decide)]
  rfl

/-! ## Finding resources -/

variable {files : FileTree} {bundles : List Bundle} {path : String} {resource : Resource}

theorem keeps_of_find? (hpath : Path.isAbsolute path = false)
    (h : (ofBundles files bundles).find? path = some resource) :
    ∃ b ∈ bundles, resource.path = path ∧ resource.bundle? = b.id? ∧
      b.Keeps files path resource.location := by
  obtain ⟨b, hb, hresource⟩ := List.exists_of_findSome?_eq_some h
  obtain ⟨location, hlocate, rfl⟩ := Option.map_eq_some_iff.mp hresource
  exact ⟨b, hb, rfl, rfl, Bundle.keeps_of_locate hpath hlocate⟩

/-- **What is found lies below the folder of its bundle.** -/
theorem ofBundles_keeps (files : FileTree) (bundles : List Bundle) :
    let l := ofBundles files bundles
    (∀ path resource, Path.isAbsolute path = false → l.find? path = some resource →
      ∃ b ∈ bundles, resource.bundle? = b.id? ∧ b.Keeps files path resource.location) ∧
    (∀ path id, Path.isAbsolute path = false → l.hasEntry id path →
      ∃ b ∈ bundles, b.id? = some id ∧ ∃ location, b.locate files path = some location ∧
        b.Keeps files path location) ∧
    (∀ name suffix icon, ClassName.startsWithSlash name = false →
      Path.isAbsolute suffix = false → l.findIcon name suffix = some icon →
      ∃ resource, l.find? icon.path = some resource ∧
        ∃ b ∈ bundles, icon.bundle? = b.id? ∧ b.Keeps files icon.path resource.location) ∧
    (∀ key : Key, ClassName.startsWithSlash key.outermost = false →
      Path.isAbsolute key.descriptionPath = false) ∧
    ∀ name marker, ClassName.startsWithSlash name = false → Path.isAbsolute marker = false →
      Path.isAbsolute (markerPath name marker) = false := by
  refine ⟨fun path resource hpath hfind ↦ ?_, fun path id hpath hentry ↦ ?_,
    fun name suffix icon hname hsuffix hicon ↦ ?_,
    fun _ hkey ↦ Key.isAbsolute_descriptionPath hkey,
    fun _ _ hname hmarker ↦ isAbsolute_markerPath hname hmarker⟩
  · obtain ⟨b, hb, -, hbundle, hkeeps⟩ := keeps_of_find? hpath hfind
    exact ⟨b, hb, hbundle, hkeeps⟩
  · obtain ⟨b, hb, hid⟩ := List.any_eq_true.mp hentry
    obtain ⟨hid, hsome⟩ := (Bool.and_eq_true _ _).mp hid
    obtain ⟨location, hlocate⟩ := Option.isSome_iff_exists.mp hsome
    exact ⟨b, hb, eq_of_beq hid, location, hlocate, Bundle.keeps_of_locate hpath hlocate⟩
  · obtain ⟨extension, -, hfound⟩ := List.exists_of_findSome?_eq_some hicon
    obtain ⟨resource, hfind, rfl⟩ := Option.map_eq_some_iff.mp hfound
    obtain ⟨b, hb, hpath, hbundle, hkeeps⟩ :=
      keeps_of_find? (isAbsolute_iconPath extension hname hsuffix) hfind
    have hicon_path : resource.toIcon.path = iconPath name suffix extension := hpath
    rw [hicon_path]
    exact ⟨resource, hfind, b, hb, hbundle, hkeeps⟩

/-! A bundle in a folder, and a file that is in none of its folders. -/

def metaBundle : Bundle := { id? := some "core", root := .folder "/work/meta" }

def workFiles : FileTree :=
  (({} : FileTree).write ["etc", "passwd"] [1]).write ["work", "meta", "a", "Button.png"] [2]

theorem ofBundles_keeps_button : Path.isAbsolute "a/Button.png" = false ∧
    ∃ resource, (ofBundles workFiles [metaBundle]).find? "a/Button.png" = some resource ∧
      ∃ b ∈ [metaBundle], resource.bundle? = b.id? ∧
        b.Keeps workFiles "a/Button.png" resource.location := by
  have hpath : Path.isAbsolute "a/Button.png" = false := by decide
  have hfind : ((ofBundles workFiles [metaBundle]).find? "a/Button.png").isSome := by decide +kernel
  obtain ⟨resource, hresource⟩ := Option.isSome_iff_exists.mp hfind
  exact ⟨hpath, resource, hresource,
    (ofBundles_keeps workFiles [metaBundle]).1 _ resource hpath hresource⟩

/-- **An absolute path leads out of the folder**, though it has no segment `..`. -/
theorem ofBundles_finds_outside : ".." ∉ Path.segments "/etc/passwd" ∧
    (ofBundles workFiles [metaBundle]).hasEntry "core" "/etc/passwd" ∧
    (ofBundles workFiles [metaBundle]).find? "/etc/passwd" =
      some { path := "/etc/passwd", bundle? := some "core", toolkit? := none,
             location := .file "/etc/passwd" (some [1]) } ∧
    ¬metaBundle.Keeps workFiles "/etc/passwd" (.file "/etc/passwd" (some [1])) := by
  refine ⟨by decide +kernel, by decide +kernel, by decide +kernel, fun h ↦ ?_⟩
  cases h with
  | file hroot hfile hcontent =>
    obtain rfl := BundleRoot.folder.inj hroot
    have hnames := hfile.names_eq
    revert hnames
    decide +kernel

end Locator

end ComponentCatalog
