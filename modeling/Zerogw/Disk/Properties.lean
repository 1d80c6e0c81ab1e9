import Zerogw.Disk.Basic
import Zerogw.Library.Execution

/-!
# Which files are sent

The path that is checked stays below the document root, and so does an entry next to it. What is
sent from outside is what a symbolic link with the suffix `.gz` leads to.
-/

namespace Zerogw

open Execution

namespace Disk

variable {fs : FileSystem} {conf : StaticConf} {req : DiskRequest} {p q d : FilePath} {n : FileName}
  {dir : Bytes} {k : ℕ}

/-! ### Paths as strings -/

/-- The path as a string, with nothing for the root. -/
def slashed (p : FilePath) : Bytes := p.flatMap fun n => slash :: n.val

lemma slashed_cons : slashed (n :: p) = slash :: (n.val ++ slashed p) := by simp [slashed]

lemma pathString_of_ne (hp : p ≠ []) : pathString p = slashed p := if_neg hp

lemma slashed_eq_intercalate (p : FilePath) :
    slashed p = [slash].intercalate ([] :: p.map Subtype.val) := by
  induction p with
  | nil => rfl
  | cons n p ih =>
    rw [slashed_cons, ih]
    cases p <;> simp [List.intercalate]

lemma component_name (n : FileName) : component n.val = .name n := by
  rw [component, if_neg n.property.2.2.2, dif_pos n.property]

lemma components_slashed (p : FilePath) : components (slashed p) = .here :: p.map .name := by
  rw [components, slashed_eq_intercalate, List.splitOn_intercalate _ _ (by simp)]
  · rw [List.map_cons, List.map_map]
    exact congrArg₂ List.cons rfl (List.map_congr_left fun n _ => component_name n)
  · intro l hl
    rcases List.mem_cons.mp hl with rfl | hl
    · simp
    · obtain ⟨n, -, rfl⟩ := List.mem_map.mp hl
      exact n.property.2.1

/-- The string of a path leads to the path, however the resolution treats it. -/
lemma resolve_pathString (fs : FileSystem) (k : ℕ) (p : FilePath) :
    fs.tree.resolve k (fs.start (pathString p)) (components (pathString p))
      = fs.tree.resolve k [] (p.map .name) := by
  by_cases hp : p = []
  · subst hp
    rw [show components (pathString []) = [.here, .here] from rfl,
      show fs.start (pathString []) = [] from rfl, FileTree.resolve_here fs.tree.root,
      FileTree.resolve_here fs.tree.root, List.map_nil]
  · obtain ⟨n, p, rfl⟩ := List.exists_cons_of_ne_nil hp
    rw [pathString_of_ne hp, components_slashed, slashed_cons,
      show fs.start (slash :: (n.val ++ slashed p)) = [] from rfl,
      FileTree.resolve_here fs.tree.root]

/-! ### Being below a directory -/

/-- The path is strictly below the directory. -/
def Below (dir : Bytes) (p : FilePath) : Prop :=
  ∃ d rest, rest ≠ [] ∧ p = d ++ rest ∧ slashed d = dir

lemma isBelow_iff_exists {path : Bytes} :
    isBelow dir path = true ↔ ∃ rest, path = dir ++ slash :: rest := by
  simp only [isBelow, Bool.and_eq_true, decide_eq_true_eq, beq_iff_eq]
  constructor
  · rintro ⟨⟨-, htake⟩, hget⟩
    obtain ⟨hlt, hget⟩ := List.getElem?_eq_some_iff.mp hget
    refine ⟨path.drop (dir.length + 1), ?_⟩
    rw [← hget, List.getElem_cons_drop, ← htake, List.length_take, min_eq_left hlt.le,
      List.take_append_drop]
  · rintro ⟨rest, rfl⟩
    simp

/-- A string that begins like a name with a path behind it, up to a slash, contains the name. -/
lemma exists_append_of_name {rest : Bytes} (h : n.val ++ slashed p = dir ++ slash :: rest) :
    ∃ dir', dir = n.val ++ dir' ∧ slashed p = dir' ++ slash :: rest := by
  rcases List.append_eq_append_iff.mp h with ⟨dir', hdir, hp⟩ | ⟨mid, hn, hrest⟩
  · exact ⟨dir', hdir, hp⟩
  · cases mid with
    | nil => exact ⟨[], by simpa using hn.symm, by simpa using hrest.symm⟩
    | cons c mid =>
      rw [List.cons_append, List.cons.injEq] at hrest
      obtain ⟨rfl, -⟩ := hrest
      exact absurd (hn ▸ List.mem_append_right dir List.mem_cons_self) n.property.2.1

/-- The comparison of strings finds out whether a path is below a directory. -/
lemma below_iff : (∃ rest, slashed p = dir ++ slash :: rest) ↔ Below dir p := by
  induction p generalizing dir with
  | nil =>
    constructor
    · rintro ⟨rest, h⟩
      simp [slashed] at h
    · rintro ⟨d, rest, hne, h, -⟩
      exact absurd (List.append_eq_nil_iff.mp h.symm).2 hne
  | cons n p ih =>
    constructor
    · rintro ⟨rest, h⟩
      rw [slashed_cons] at h
      cases dir with
      | nil => exact ⟨[], n :: p, by simp, rfl, rfl⟩
      | cons c dir =>
        rw [List.cons_append, List.cons.injEq] at h
        obtain ⟨rfl, h⟩ := h
        -- The name has no slash, so the directory goes on at least to the end of it.
        obtain ⟨dir', rfl, hdir'⟩ := exists_append_of_name h
        obtain ⟨d, rest', hne, rfl, rfl⟩ := ih.mp ⟨rest, hdir'⟩
        exact ⟨n :: d, rest', hne, rfl, by rw [slashed_cons]⟩
    · rintro ⟨d, rest, hne, h, rfl⟩
      obtain ⟨m, rest, rfl⟩ := List.exists_cons_of_ne_nil hne
      refine ⟨m.val ++ slashed rest, ?_⟩
      rw [h, ← slashed_cons]
      simp [slashed]

lemma isBelow_pathString (hp : p ≠ []) : isBelow dir (pathString p) = true ↔ Below dir p := by
  rw [pathString_of_ne hp, isBelow_iff_exists]
  exact below_iff

/-- Only the document root `""` has the root directory below it. -/
lemma isBelow_root (h : isBelow dir (pathString []) = true) : dir = [] := by
  obtain ⟨rest, hrest⟩ := isBelow_iff_exists.mp h
  cases dir with
  | nil => rfl
  | cons c dir =>
    rw [pathString, if_pos rfl, List.cons_append, List.cons.injEq] at hrest
    simp at hrest

/-! ### The compressed file -/

lemma isName_gz (s : Bytes) (hs : slash ∉ s) : IsName (s ++ str ".gz") := by
  have hlen : (s ++ str ".gz").length = s.length + 3 := by rw [List.length_append]; rfl
  refine ⟨by simp [str], ?_, ?_, ?_⟩
  · rw [List.mem_append]
    exact not_or.mpr ⟨hs, by decide⟩
  · intro h
    have : (s ++ str ".gz").length = 1 := by rw [h]; rfl
    omega
  · intro h
    have : (s ++ str ".gz").length = 2 := by rw [h]; rfl
    omega

/-- The last name of a path with the suffix `.gz`. -/
def gzName (p : FilePath) : FileName :=
  match h : p.getLast? with
  | none => ⟨str ".gz", isName_gz [] (by simp)⟩
  | some n => ⟨n.val ++ str ".gz", isName_gz n.val n.property.2.1⟩

/-- The entry next to the end of a path with the suffix `.gz`. -/
def sibling (p : FilePath) : FilePath := p.dropLast ++ [gzName p]

lemma gzName_concat : (gzName (p ++ [n])).val = n.val ++ str ".gz" := by
  rw [gzName]
  split
  · next h => simp at h
  · next m h =>
    rw [List.getLast?_concat, Option.some.injEq] at h
    rw [h]

lemma sibling_ne (p : FilePath) : sibling p ≠ [] := by simp [sibling]

/-- The name under which `get_file` looks for a compressed file. -/
lemma pathString_sibling (p : FilePath) : pathString p ++ str ".gz" = pathString (sibling p) := by
  rw [pathString_of_ne (sibling_ne p)]
  induction p using List.reverseRecOn with
  | nil => rfl
  | append_singleton p n =>
    rw [pathString_of_ne (by simp), sibling, List.dropLast_concat, slashed, slashed,
      List.flatMap_append, List.flatMap_append, List.flatMap_singleton, List.flatMap_singleton,
      gzName_concat]
    simp

lemma Below.sibling (h : Below dir p) : Below dir (sibling p) := by
  obtain ⟨d, rest, hne, rfl, hd⟩ := h
  refine ⟨d, rest.dropLast ++ [gzName (d ++ rest)], by simp, ?_, hd⟩
  rw [Disk.sibling, List.dropLast_append_of_ne_nil hne, List.append_assoc]

lemma below_nil (hp : p ≠ []) : Below [] p := ⟨[], p, hp, rfl, rfl⟩

/-! ### Confinement -/

/-- Where the configuration allows files to be. -/
def Confined (conf : StaticConf) (q : FilePath) : Prop :=
  (conf.restrictRoot = true → Below conf.root q) ∧
    (conf.restrictDirs ≠ [] → ∃ dir ∈ conf.restrictDirs, Below dir q)

/-- A path with a comparison for each directory that the configuration names. -/
lemma exists_isBelow_of_checkPath {path : Bytes} (h : checkPath conf path = true) :
    (conf.restrictRoot = true → isBelow conf.root path = true) ∧
      (conf.restrictDirs ≠ [] → ∃ dir ∈ conf.restrictDirs, isBelow dir path = true) := by
  rw [checkPath] at h
  split_ifs at h with hroot hdirs
  · simp only [Bool.and_eq_true, Bool.not_eq_eq_eq_not, Bool.not_true, not_and,
      Bool.not_eq_false] at hroot
    exact ⟨hroot, fun hne => absurd (List.length_eq_zero_iff.mp hdirs) hne⟩
  · simp only [Bool.and_eq_true, Bool.not_eq_eq_eq_not, Bool.not_true, not_and,
      Bool.not_eq_false] at hroot
    exact ⟨hroot, fun _ => List.any_eq_true.mp h⟩

lemma confined_of_checkPath (hp : p ≠ []) (h : checkPath conf (pathString p) = true) :
    Confined conf p := by
  obtain ⟨hroot, hdirs⟩ := exists_isBelow_of_checkPath h
  refine ⟨fun hr => (isBelow_pathString hp).mp (hroot hr), fun hne => ?_⟩
  obtain ⟨dir, hmem, hdir⟩ := hdirs hne
  exact ⟨dir, hmem, (isBelow_pathString hp).mp hdir⟩

/-- The entry for a compressed file is confined whenever the path that is checked is. -/
lemma confined_sibling (h : checkPath conf (pathString p) = true) : Confined conf (sibling p) := by
  by_cases hp : p = []
  · subst hp
    obtain ⟨hroot, hdirs⟩ := exists_isBelow_of_checkPath h
    refine ⟨fun hr => ?_, fun hne => ?_⟩
    · rw [isBelow_root (hroot hr)]
      exact below_nil (sibling_ne [])
    · obtain ⟨dir, hmem, hdir⟩ := hdirs hne
      rw [isBelow_root hdir] at hmem
      exact ⟨[], hmem, below_nil (sibling_ne [])⟩
  · obtain ⟨hroot, hdirs⟩ := confined_of_checkPath hp h
    refine ⟨fun hr => (hroot hr).sibling, fun hne => ?_⟩
    obtain ⟨dir, hmem, hdir⟩ := hdirs hne
    exact ⟨dir, hmem, hdir.sibling⟩

/-! ### What is sent -/

/-- The request passes all checks, and its path is resolved to `p`. -/
def Checked (fs : FileSystem) (conf : StaticConf) (req : DiskRequest) (p : FilePath) : Prop :=
  ∃ full, checkBase conf req.path = .ok true ∧ joinPaths conf req.path = .ok full ∧
    fs.realpath full = some p ∧ checkPath conf (pathString p) = true

lemma Checked.serve (h : Checked fs conf req p) :
    serve fs conf req = .ok (getFile fs (pathString p) req.ifModified req.gzipped) := by
  obtain ⟨full, hbase, hfull, hp, hcheck⟩ := h
  simp [Disk.serve, hbase, hfull, hp, hcheck, bind, Except.bind, pure, Except.pure]

lemma checked_of_serve {name lm data : Bytes} {gz : Bool}
    (h : serve fs conf req = .ok (.ok name gz lm data)) :
    ∃ p, Checked fs conf req p ∧
      getFile fs (pathString p) req.ifModified req.gzipped = .ok name gz lm data := by
  rw [serve] at h
  obtain ⟨base, hbase, h⟩ := bind_eq_ok.mp h
  cases base with
  | false => simp [pure, Except.pure] at h
  | true =>
    simp only [Bool.not_true, Bool.false_eq_true, if_false] at h
    obtain ⟨full, hfull, h⟩ := bind_eq_ok.mp h
    cases hp : fs.realpath full with
    | none => simp [hp, pure, Except.pure] at h
    | some p =>
      simp only [hp] at h
      cases hcheck : checkPath conf (pathString p) with
      | false => simp [hcheck, pure, Except.pure] at h
      | true =>
        simp only [hcheck, Bool.not_true, Bool.false_eq_true, if_false, pure, Except.pure,
          Except.ok.injEq] at h
        exact ⟨p, ⟨full, hbase, hfull, hp, hcheck⟩, h⟩

lemma Checked.canonical (h : Checked fs conf req p) : fs.tree.Canonical p := by
  obtain ⟨full, -, -, hp, -⟩ := h
  refine FileTree.Canonical.resolve ?_ hp
  rw [FileSystem.start]
  split_ifs
  · exact FileTree.canonical_of_dir fs.tree.root
  · exact FileTree.canonical_of_dir fs.cwd_dir

lemma resolve_of_openPath {name : Bytes} (h : fs.openPath name = some q) :
    fs.tree.resolve fs.openLinks (fs.start name) (components name) = some q :=
  Option.eq_some_of_filter_eq_some h

/-- What is opened under the name of a canonical path is what is at the path. -/
lemma eq_of_openPath (hp : fs.tree.Canonical p) (h : fs.openPath (pathString p) = some q) :
    q = p := by
  have hres := resolve_of_openPath h
  rw [resolve_pathString] at hres
  have hcanon : fs.tree.Canonical ([] ++ p) := hp
  exact Option.some.inj (hres.symm.trans hcanon.resolve_names)

/-- What is opened as the compressed file is the entry next to the path, if that is no link. -/
lemma eq_of_openPath_sibling (hp : fs.tree.Canonical p)
    (hlink : ∀ absolute target, fs.tree.node (sibling p) ≠ some (.link absolute target))
    (h : fs.openPath (pathString (sibling p)) = some q) : q = sibling p := by
  have hres := resolve_of_openPath h
  rw [resolve_pathString] at hres
  have hdir : fs.tree.node p.dropLast = some .dir := by
    induction p using List.reverseRecOn with
    | nil => exact fs.tree.root
    | append_singleton p n =>
      obtain ⟨x, hx, -⟩ := hp
      rw [List.dropLast_concat]
      exact fs.tree.parent p n (by simp [hx])
  rcases FileTree.resolve_entry hdir hres with rfl | ⟨absolute, target, hl⟩
  · rfl
  · exact absurd hl (hlink absolute target)

/-- A file that is opened under the name and sent. -/
def Sent (fs : FileSystem) (name ifModified data : Bytes) (q : FilePath) : Prop :=
  fs.openPath name = some q ∧
    ∃ f, fs.tree.node q = some (.file f) ∧ ifModified ≠ f.lastModified ∧ f.data = data

lemma readFile_ok {path ifModified name lm data : Bytes} {gz gz' : Bool} (h :
    readFile fs path gz ifModified q = .ok name gz' lm data) :
    name = path ∧ ∃ f, fs.tree.node q = some (.file f) ∧ ifModified ≠ f.lastModified ∧
      f.data = data := by
  rw [readFile] at h
  split at h
  · next f hf =>
    split_ifs at h with hmod
    simp only [DiskReply.ok.injEq] at h
    exact ⟨h.1.symm, f, hf, hmod, h.2.2.2⟩
  · simp at h

lemma getFile_ok {path ifModified name lm data : Bytes} {gz gz' : Bool}
    (h : getFile fs path ifModified gz = .ok name gz' lm data) :
    (gz = true ∧ name = path ++ str ".gz" ∨ name = path) ∧
      ∃ q, Sent fs name ifModified data q := by
  rw [getFile] at h
  split at h
  · next q hq =>
    obtain ⟨rfl, hf⟩ := readFile_ok h
    split_ifs at hq with hgz
    exact ⟨Or.inl ⟨hgz, rfl⟩, q, hq, hf⟩
  · split at h
    · next q hq =>
      obtain ⟨rfl, hf⟩ := readFile_ok h
      exact ⟨Or.inr rfl, q, hq, hf⟩
    · simp at h

/-- The file next to the path with the suffix `.gz` is a symbolic link, and it is what leads out of
the directories that the configuration allows. -/
structure LeavesByGzip (fs : FileSystem) (conf : StaticConf) (req : DiskRequest) (p q : FilePath)
    (f : FileData) : Prop where
  gzipped : req.gzipped = true
  checked : Checked fs conf req p
  link : ∃ absolute target, fs.tree.node (sibling p) = some (.link absolute target)
  opened : fs.openPath (pathString (sibling p)) = some q
  file : fs.tree.node q = some (.file f)
  modified : req.ifModified ≠ f.lastModified
  outside : ¬ Confined conf q

lemma LeavesByGzip.serve {f : FileData} (h : LeavesByGzip fs conf req p q f) :
    serve fs conf req = .ok (.ok (pathString (sibling p)) true f.lastModified f.data) := by
  rw [h.checked.serve, getFile, pathString_sibling, h.gzipped]
  simp only [if_true, h.opened, readFile, h.file, h.modified, if_false]

/-- Every file that is sent is where the configuration allows it, unless it was found behind a
symbolic link with the suffix `.gz`. -/
theorem confined_iff (fs : FileSystem) (conf : StaticConf) (path : Bytes)
    (ifModified acceptEncoding : Option Bytes) :
    (∀ name gz lm data,
      serve fs conf (diskRequest conf path ifModified acceptEncoding) = .ok (.ok name gz lm data) →
      ∃ q f, fs.tree.Resolves (fs.start name) (components name) q ∧
        fs.tree.node q = some (.file f) ∧ f.data = data ∧ Confined conf q) ↔
    ∀ p q f, ¬ LeavesByGzip fs conf (diskRequest conf path ifModified acceptEncoding) p q f := by
  constructor
  · intro h p q f hleaves
    obtain ⟨q', f', hq', -, -, hconf⟩ := h _ _ _ _ hleaves.serve
    have hq : fs.tree.Resolves _ _ q := ⟨fs.openLinks, resolve_of_openPath hleaves.opened⟩
    exact hleaves.outside (hq'.unique hq ▸ hconf)
  · intro h name gz lm data hserve
    obtain ⟨p, hchecked, hget⟩ := checked_of_serve hserve
    obtain ⟨hname, q, hopen, f, hf, hmod, hdata⟩ := getFile_ok hget
    refine ⟨q, f, ⟨fs.openLinks, resolve_of_openPath hopen⟩, hf, hdata, ?_⟩
    obtain ⟨-, -, -, -, hcheck⟩ := id hchecked
    rcases hname with ⟨hgz, rfl⟩ | rfl
    · rw [pathString_sibling] at hopen
      by_contra hout
      refine h p q f ⟨hgz, hchecked, ?_, hopen, hf, hmod, hout⟩
      by_contra hlink
      push Not at hlink
      exact hout (eq_of_openPath_sibling hchecked.canonical hlink hopen ▸ confined_sibling hcheck)
    · obtain rfl := eq_of_openPath hchecked.canonical hopen
      refine confined_of_checkPath ?_ hcheck
      -- The root is a directory, and no file.
      rintro rfl
      rw [fs.tree.root] at hf
      cases hf

def srv : FileName := ⟨str "srv", by decide⟩
def page : FileName := ⟨str "page", by decide⟩
def pageGz : FileName := ⟨str "page.gz", by decide⟩
def secret : FileName := ⟨str "secret", by decide⟩

/-- A document root with one file and a link next to it. -/
def linkedFiles : FileSystem where
  tree := .ofEntries [([srv], .dir), ([srv, page], .file ⟨str "public", str "today", true⟩),
    ([srv, pageGz], .link true [.name secret]),
    ([secret], .file ⟨str "private", str "today", true⟩)]
    (by decide)
  cwd := []
  cwd_dir := rfl
  realpathLinks := 40
  openLinks := 40

def restrictedConf : StaticConf where
  root := str "/srv"
  stripDirs := 0
  indexFile := none
  singleUri := []
  restrictRoot := true
  restrictDirs := []
  denySuffixes := []
  denyPrefixes := []
  gzipEnabled := true

/-- The link is followed although the path that was checked does not lead through it. -/
theorem leaves_by_gzip :
    (restrictedConf.root = slashed [srv] ∧ linkedFiles.tree.node [srv] = some .dir) ∧
    ∃ name, serve linkedFiles restrictedConf
        (diskRequest restrictedConf (str "/page") none (some (str "gzip")))
      = .ok (.ok name true (str "today") (str "private")) ∧
    ∀ q, linkedFiles.tree.Resolves (linkedFiles.start name) (components name) q →
      ¬ Confined restrictedConf q := by
  refine ⟨⟨rfl, rfl⟩, str "/srv/page.gz", rfl, fun q hq hconf => ?_⟩
  have hsecret : linkedFiles.tree.Resolves (linkedFiles.start (str "/srv/page.gz"))
      (components (str "/srv/page.gz")) [secret] := ⟨1, rfl⟩
  obtain rfl := hq.unique hsecret
  obtain ⟨d, rest, hne, heq, hd⟩ := hconf.1 rfl
  -- A single name has only the root above it.
  cases d with
  | nil => simp [slashed, restrictedConf, str] at hd
  | cons n d =>
    rw [List.cons_append, List.cons.injEq] at heq
    exact hne (List.append_eq_nil_iff.mp heq.2.symm).2

end Disk

end Zerogw
