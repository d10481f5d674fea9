import Dmrlib.Lib.CString
import Dmrlib.Lib.Paths

/-!
# Requests for files (`src/cmd/noisebridge/http.c`)

When the headers of a request are complete, its path is joined to the root directory and
made canonical, and the result is dropped unless the root begins it, byte for byte. That
lets through the siblings of the root whose name begins with the root's own
(`confined_iff`).

Joining paths and making them canonical are functions of a library that is not part of the
repository; `PathFunctions.Documented` is what they are for.

- `handleClientHeadersComplete`: the callback, from the path of a request to the file to open.
- `openedFile`: the file that is opened.
- `Confined`: that file lies below the root, or there is none.
- `StaysIn`: the condition, on where the path leads from the root.
- `lexicalPaths`: functions on paths as they are documented, for the concrete cases.
-/

namespace Dmrlib

open CString Paths

/-- A directory or file, by the names on the way to it. -/
abbrev Location := List (Name (0x2f : UInt8) 0x2e)

/-- The absolute path of a location. -/
abbrev pathOf (l : Location) : List UInt8 := render 0x2f 0x2e l

/-- `format_path_join` and `format_path_canonical`; the latter leaves an empty string where
it fails. -/
structure PathFunctions where
  formatPathJoin : List UInt8 → List UInt8 → List UInt8
  formatPathCanonical : List UInt8 → List UInt8

/-- What the two are for, in the working directory `cwd`. -/
structure PathFunctions.Documented (paths : PathFunctions) (cwd : Location) : Prop where
  join : ∀ root path, paths.formatPathJoin root path = root ++ 0x2f :: path
  canonical : ∀ path, paths.formatPathCanonical path = [] ∨
    paths.formatPathCanonical path = pathOf (resolve 0x2f 0x2e cwd path)

/-- `PATH_MAX` -/
abbrev PATH_MAX : Nat := 4096

/-- The root directory that `read_config_httpd` takes from a line `root = v`. -/
def readConfigHttpdRoot (paths : PathFunctions) (v : List UInt8) : Option (List UInt8) :=
  let root := paths.formatPathCanonical v
  if root.length = 0 then none else some root

/-- The part of `client->request` that is made from the path. -/
structure Request where
  file : Option (List UInt8)
  path : Option (List UInt8)
deriving DecidableEq

/-- `request_path`, after the copy and the rewriting. -/
def requestPath (field : List UInt8) : List UInt8 :=
  let path := untilNul field
  if strncmp path (bytes "/") 2 = .eq then bytes "/index.html" else path

/-- The checks of the canonical path: a file that fails them is given up. -/
def keptFile (root file : List UInt8) : Option (List UInt8) :=
  if file.length = 0 then none
  else if strncmp root file root.length ≠ .eq then none
  else some file

/-- `handle_client_headers_complete`: the return value and the request. `field` is the path
in the header buffer. It is copied into 1024 bytes of zeros; `none` is a copy that does not
leave one at the end. Memory for the two strings is taken for granted. -/
def handleClientHeadersComplete (paths : PathFunctions) (root field : List UInt8)
    (request : Request) : Option (Int × Request) :=
  if field.length ≥ PATH_MAX then some (-1, request)
  else if field.length ≥ 1024 then none
  else
    let path := requestPath field
    let requestFile := paths.formatPathJoin root path
    let file := paths.formatPathCanonical requestFile
    some (0, ⟨keptFile root file, some path⟩)

/-- What `handle_readable` has `respond_write` open, once the parser is through with
the headers. -/
def openedFile (r : Int × Request) : Option (List UInt8) := if r.1 = 0 then r.2.file else none

/-! ## Confinement to the root -/

/-- The request is handled, and what is opened for it is the root or lies below it. -/
def Confined (paths : PathFunctions) (root field : List UInt8) (request : Request) : Prop :=
  ∃ r, handleClientHeadersComplete paths root field request = some r ∧
    ∀ file, openedFile r = some file → Below 0x2f root file

/-- Where a request path leads from the root. -/
def requestLocation (root : Location) (field : List UInt8) : Location :=
  (pieces 0x2f (requestPath field)).foldl (walk 0x2f 0x2e) root

/-- The path is taken to be too long, or is copied as a whole and does not lead into a
sibling of the root whose name begins with the root's; or the library cannot make it
canonical. -/
def StaysIn (paths : PathFunctions) (root : Location) (field : List UInt8) : Prop :=
  field.length ≥ PATH_MAX ∨ field.length < 1024 ∧
    (paths.formatPathCanonical (paths.formatPathJoin (pathOf root) (requestPath field)) = [] ∨
      ¬ LongerSibling root (requestLocation root field))

/-- A root from the configuration is a canonical path. -/
theorem readConfigHttpdRoot_spec {paths : PathFunctions} {cwd : Location}
    (hpaths : paths.Documented cwd) {v root : List UInt8}
    (h : readConfigHttpdRoot paths v = some root) : root = pathOf (resolve 0x2f 0x2e cwd v) := by
  unfold readConfigHttpdRoot at h
  simp only at h
  split at h
  · cases h
  · next hlen =>
    cases h
    refine (hpaths.canonical v).resolve_left fun hnil => ?_
    exact hlen (by rw [hnil]; rfl)

/-- The file that a path leads to. -/
theorem canonical_join {paths : PathFunctions} {cwd : Location} (hpaths : paths.Documented cwd)
    (root : Location) (field : List UInt8)
    (h : paths.formatPathCanonical (paths.formatPathJoin (pathOf root) (requestPath field)) ≠ []) :
    paths.formatPathCanonical (paths.formatPathJoin (pathOf root) (requestPath field)) =
      pathOf (requestLocation root field) := by
  have hcanonical := (hpaths.canonical
    (paths.formatPathJoin (pathOf root) (requestPath field))).resolve_left h
  rw [hcanonical, hpaths.join, resolve_render_append]
  rfl

/-- The check of the prefix, between two canonical paths. -/
theorem below_of_keptFile_iff (root file : Location) :
    (∀ f, keptFile (pathOf root) (pathOf file) = some f → Below 0x2f (pathOf root) f) ↔
      ¬ LongerSibling root file := by
  have hpos : ¬ (pathOf file).length = 0 := by
    have hpre := (sep_prefix_render file).length_le
    exact fun h => absurd (h ▸ hpre) (by decide)
  unfold keptFile
  rw [if_neg hpos]
  by_cases hpre : strncmp (pathOf root) (pathOf file) (pathOf root).length = .eq
  · rw [if_neg (not_not.mpr hpre)]
    rw [strncmp_length_eq_iff, render_prefix_iff] at hpre
    constructor
    · intro hbelow hsibling
      exact hsibling.not_prefix ((below_render_iff _ _).mp (hbelow _ rfl))
    · rintro hnot f ⟨⟩
      exact (below_render_iff _ _).mpr (hpre.resolve_right hnot)
  · rw [if_pos hpre]
    rw [strncmp_length_eq_iff, render_prefix_iff, not_or] at hpre
    exact iff_of_true (fun f hf => by cases hf) hpre.2

/-- **Confinement.** Whatever root is configured, a request opens nothing outside of it
exactly when its path fits the buffer or is refused, and does not lead into a sibling of the
root with a longer name. -/
theorem confined_iff {paths : PathFunctions} {cwd : Location} (hpaths : paths.Documented cwd)
    {v root : List UInt8} (hroot : readConfigHttpdRoot paths v = some root) (field : List UInt8)
    (request : Request) :
    Confined paths root field request ↔ StaysIn paths (resolve 0x2f 0x2e cwd v) field := by
  rw [readConfigHttpdRoot_spec hpaths hroot]
  unfold Confined handleClientHeadersComplete StaysIn
  by_cases hmax : field.length ≥ PATH_MAX
  · rw [if_pos hmax]
    exact iff_of_true ⟨_, rfl, fun file hfile => by cases hfile⟩ (.inl hmax)
  rw [if_neg hmax, or_iff_right hmax]
  by_cases hlen : field.length ≥ 1024
  · rw [if_pos hlen]
    refine iff_of_false ?_ fun h => absurd h.1 (Nat.not_lt.mpr hlen)
    rintro ⟨r, hr, -⟩
    cases hr
  rw [if_neg hlen, and_iff_right (Nat.not_le.mp hlen), ← below_of_keptFile_iff]
  by_cases hnil : paths.formatPathCanonical (paths.formatPathJoin
      (pathOf (resolve 0x2f 0x2e cwd v)) (requestPath field)) = []
  · refine iff_of_true ⟨_, rfl, fun file hfile => ?_⟩ (.inl hnil)
    rw [openedFile, if_pos rfl, hnil] at hfile
    cases hfile
  · rw [or_iff_right hnil, ← canonical_join hpaths _ field hnil]
    constructor
    · rintro ⟨r, ⟨⟩, hbelow⟩
      exact hbelow
    · intro hbelow
      exact ⟨_, rfl, hbelow⟩

/-! ## A library that does what is documented -/

/-- Paths are resolved by their names alone. -/
def lexicalPaths (cwd : Location) : PathFunctions where
  formatPathJoin root path := root ++ 0x2f :: path
  formatPathCanonical path := pathOf (resolve 0x2f 0x2e cwd path)

theorem lexicalPaths_documented (cwd : Location) : (lexicalPaths cwd).Documented cwd :=
  ⟨fun _ _ => rfl, fun _ => .inr rfl⟩

/-- A request for the directory above the root. -/
theorem confined_iff_parent :
    Confined (lexicalPaths []) (bytes "/srv/html") (bytes "/..") ⟨none, none⟩ ↔
      StaysIn (lexicalPaths []) (resolve 0x2f 0x2e [] (bytes "/srv/html")) (bytes "/..") :=
  confined_iff (v := bytes "/srv/html") (lexicalPaths_documented []) (by decide) _ _

/-- From the root `/srv/html`, a file of `/srv/html-old` is served. -/
theorem not_confined_sibling :
    let paths := lexicalPaths []
    let root := bytes "/srv/html"
    paths.Documented [] ∧ readConfigHttpdRoot paths root = some root ∧
      ¬ Confined paths root (bytes "/../html-old/key") ⟨none, none⟩ := by
  refine ⟨lexicalPaths_documented [], by decide, fun h => ?_⟩
  obtain ⟨r, hr, hbelow⟩ := h
  have hfile : handleClientHeadersComplete (lexicalPaths []) (bytes "/srv/html")
      (bytes "/../html-old/key") ⟨none, none⟩ =
        some (0, ⟨some (bytes "/srv/html-old/key"), some (bytes "/../html-old/key")⟩) := by
    decide
  rw [hfile, Option.some.injEq] at hr
  subst hr
  obtain h | h | h := hbelow _ rfl
  · exact absurd h (by decide)
  · exact absurd h (by decide)
  · exact absurd h.1 (by decide)

end Dmrlib
