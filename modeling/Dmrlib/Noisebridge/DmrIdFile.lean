import Dmrlib.Noisebridge.Config

/-!
# The file of DMR ids

`read_dmrids` reads lines `<dmrid>,<call>[,<name>[,rest]]`. It takes a line apart with `split`,
which wants something behind the separator as well. So a line that ends with the call is skipped,
and a name is seen only if a rest follows it: `dmrids_resolve_iff`.

- `IdLine`: a line as documented, with a call, a name and a rest as far as they are there.
- `IdLine.read`, `IdLine.expected`: the name that the parser sees, and the one that is meant.
- `IdsResolve`: every id of the file resolves to the name of its first line.
- `IdsReadable`: the condition on the lines.
- `dmrids_resolve_iff`: the files that resolve.
-/

namespace Dmrlib

open CString

/-- `dmr_id_name` -/
def dmrIdName (ids : List (DmrId × CStr)) (id : DmrId) : Option CStr :=
  (ids.find? fun e => e.1 = id).map (·.2)

/-! ## Lines of the file

A line as it is documented; blanks around a field are not part of it.
-/

/-- A call or a name. -/
structure IdField where
  text : CStr
  nonempty : text ≠ []
  comma : 0x2c ∉ text
  nul : 0 ∉ text
  trimmed : trim text = text

/-- What follows the call. -/
inductive IdTail where
  | empty
  | withName (name : IdField)
  | withRest (name : IdField) (rest : CStr) (nul : 0 ∉ rest)

/-- A call as it is shown with a name. -/
def named (call name : IdField) : CStr := call.text ++ bytes " (" ++ name.text ++ bytes ")"

/-- A line of the file, with the end of the line. -/
structure IdLine where
  id : DmrId
  digits : CStr
  call : IdField
  tail : IdTail
  ending : CStr
  id_ne : id ≠ 0
  digits_ne : digits ≠ []
  digit : ∀ c ∈ digits, 0x30 ≤ c ∧ c ≤ 0x39
  reads : readDecimal digits = id.toNat
  blank : ∀ c ∈ ending, isspace c = true
  short : call.text.length +
    (match tail with
      | .empty => 0
      | .withName name | .withRest name _ _ => name.text.length) < 60

/-- `[,<name>[,rest]]` -/
def IdTail.text : IdTail → CStr
  | empty => []
  | withName name => 0x2c :: name.text
  | withRest name rest _ => 0x2c :: (name.text ++ 0x2c :: rest)

/-- `<dmrid>,<call>[,<name>[,rest]]` -/
def IdLine.text (line : IdLine) : List UInt8 :=
  line.digits ++ 0x2c :: (line.call.text ++ (line.tail.text ++ line.ending))

/-- What the id of a line is to resolve to. -/
def IdLine.expected (line : IdLine) : CStr :=
  match line.tail with
  | .empty => line.call.text
  | .withName name | .withRest name _ _ => named line.call name

/-- A name is there, and something after it. -/
def IdLine.Complete (line : IdLine) : Prop :=
  match line.tail with
  | .empty | .withName _ => False
  | .withRest _ rest _ => ∃ c ∈ rest, isspace c = false

instance (line : IdLine) : Decidable line.Complete := by
  unfold IdLine.Complete
  split <;> infer_instance

/-- The text that is read from a line: nothing without a name, and the name only in a complete
line. -/
def IdLine.read (line : IdLine) : Option CStr :=
  match line.tail with
  | .empty => none
  | .withName _ | .withRest _ _ _ => some (if line.Complete then line.expected else line.call.text)

theorem IdLine.not_complete {line : IdLine}
    (h : ∀ name rest hrest, line.tail ≠ .withRest name rest hrest) : ¬ line.Complete := by
  unfold IdLine.Complete
  cases htail : line.tail with
  | empty | withName => exact not_false
  | withRest name rest hrest => exact absurd htail (h name rest hrest)

/-! ## Taking a line apart

`split` on each of the separators, and `trim` on what it leaves.
-/

theorem rtrim_append (a b : CStr) :
    rtrim (a ++ b) = if rtrim b = [] then rtrim a else a ++ rtrim b := by
  unfold rtrim List.rdropWhile
  rw [List.reverse_append, List.dropWhile_append]
  simp only [List.isEmpty_iff, List.reverse_eq_nil_iff]
  split
  · rfl
  · rw [List.reverse_append, List.reverse_reverse]

theorem rtrim_eq_nil_iff (a : CStr) : rtrim a = [] ↔ ∀ c ∈ a, isspace c = true :=
  List.rdropWhile_eq_nil_iff

/-- Blanks at the end go away, up to a character that is none. -/
theorem rtrim_append_cons (a : CStr) {c : UInt8} (hc : isspace c = false) (s : CStr) :
    rtrim (a ++ c :: s) = a ++ c :: rtrim s := by
  have hcons : rtrim (c :: s) = c :: rtrim s := by
    have happend := rtrim_append [c] s
    rw [List.singleton_append] at happend
    rw [happend]
    split
    · next hnil =>
      rw [hnil]
      exact (List.rdropWhile_singleton _ c).trans (if_neg (by simp [hc]))
    · rfl
  rw [rtrim_append, if_neg (by rw [hcons]; exact List.cons_ne_nil _ _), hcons]

theorem rtrim_append_blank {b : CStr} (h : ∀ c ∈ b, isspace c = true) (a : CStr) :
    rtrim (a ++ b) = rtrim a := by
  rw [rtrim_append, if_pos ((rtrim_eq_nil_iff b).mpr h)]

theorem IdField.rtrim (field : IdField) : rtrim field.text = field.text := by
  have hle : (ltrim (Dmrlib.rtrim field.text)).length ≤ (Dmrlib.rtrim field.text).length :=
    (List.dropWhile_suffix _).length_le
  have htrimmed := congrArg List.length field.trimmed
  refine (List.rdropWhile_prefix _ field.text).eq_of_length_le ?_
  exact htrimmed ▸ hle

theorem IdField.ltrim (field : IdField) : ltrim field.text = field.text := by
  have htrimmed := field.trimmed
  rwa [trim, field.rtrim] at htrimmed

theorem ltrim_append {a : CStr} (hne : a ≠ []) (h : ltrim a = a) (b : CStr) :
    ltrim (a ++ b) = a ++ b := by
  obtain ⟨c, cs, rfl⟩ := List.exists_cons_of_ne_nil hne
  have hc : isspace c = false := by
    by_contra hspace
    rw [ltrim, List.dropWhile_cons_of_pos (by simpa using hspace)] at h
    have hle := (List.dropWhile_suffix (l := cs) isspace).length_le
    rw [h] at hle
    exact absurd hle (by simp)
  exact List.dropWhile_cons_of_neg (by simp [hc])

theorem IdField.trim_append_blank (field : IdField) {b : CStr}
    (h : ∀ c ∈ b, isspace c = true) : trim (field.text ++ b) = field.text := by
  rw [trim, rtrim_append_blank h, field.rtrim, field.ltrim]

theorem IdField.trim_append_comma (field : IdField) (s : CStr) :
    trim (field.text ++ 0x2c :: s) = field.text ++ 0x2c :: Dmrlib.rtrim s := by
  rw [trim, rtrim_append_cons _ (by decide), ltrim_append field.nonempty field.ltrim]

theorem trim_eq_nil_iff (a : CStr) : trim a = [] ↔ ∀ c ∈ a, isspace c = true := by
  constructor
  · intro h
    -- the first character that stays is none that `ltrim` drops
    refine (rtrim_eq_nil_iff a).mp (List.eq_nil_iff_forall_not_mem.mpr fun c hc => ?_)
    have hall := List.dropWhile_eq_nil_iff.mp h
    have hne : rtrim a ≠ [] := List.ne_nil_of_mem hc
    exact List.rdropWhile_last_not isspace a hne (hall _ (List.getLast_mem hne))
  · intro h
    rw [trim, (rtrim_eq_nil_iff a).mpr h]
    rfl

theorem trim_rtrim (a : CStr) : trim (rtrim a) = trim a := by
  have hidempotent : rtrim (rtrim a) = rtrim a := List.rdropWhile_idempotent _ _
  rw [trim, hidempotent, trim]

theorem split_append {k : CStr} {sep : UInt8} (hne : k ≠ []) (h : sep ∉ k) (v : CStr) :
    split (k ++ sep :: v) sep =
      if (trim v).length > 0 then some (trim k, trim v) else none := by
  rw [split, strtokR_append hne h]

theorem split_last {k : CStr} {sep : UInt8} (hne : k ≠ []) (h : sep ∉ k) : split k sep = none := by
  rw [split, strtokR_last hne h]
  rfl

theorem IdField.split_comma (field : IdField) (s : CStr) :
    split (field.text ++ 0x2c :: s) 0x2c =
      if (trim s).length > 0 then some (field.text, trim s) else none := by
  rw [split_append field.nonempty field.comma, field.trimmed]

theorem IdField.split_last (field : IdField) : split field.text 0x2c = none :=
  Dmrlib.split_last field.nonempty field.comma

theorem IdField.length_trim_append_pos (field : IdField) (s : CStr) :
    (trim (field.text ++ s)).length > 0 := by
  refine List.length_pos_iff.mpr fun h => field.nonempty ?_
  rw [← field.trimmed]
  rw [trim_eq_nil_iff] at h ⊢
  exact fun c hc => h c (List.mem_append_left s hc)

/-! ## One line -/

/-- `atoi` into a `dmr_id`. -/
theorem IdLine.ofInt_atoi (line : IdLine) : UInt32.ofInt (atoi line.digits) = line.id := by
  have hlt : readDecimal line.digits < 2 ^ 32 := by
    rw [line.reads]
    exact line.id.toNat_lt
  have hmod : (line.id.toNat : Int).bmod (2 ^ 32) % 2 ^ 32 = line.id.toNat := by
    have := line.id.toNat_lt
    rw [Int.bmod]
    omega
  rw [atoi, strtol_digits line.digits_ne line.digit (by omega), line.reads, UInt32.ofInt, hmod,
    Int.toNat_natCast, UInt32.ofNat_toNat]

theorem IdLine.untilNul_text (line : IdLine) : untilNul line.text = line.text := by
  have hdigits : (0 : UInt8) ∉ line.digits := fun h => absurd (line.digit 0 h) (by decide)
  have hblank : (0 : UInt8) ∉ line.ending := fun h => absurd (line.blank 0 h) (by decide)
  have htail : (0 : UInt8) ∉ line.tail.text := by
    cases line.tail with
    | empty => exact List.not_mem_nil
    | withName name => simpa [IdTail.text] using name.nul
    | withRest name rest hrest => simpa [IdTail.text] using ⟨name.nul, hrest⟩
  have hnul : (0 : UInt8) ∉ line.text := by
    simpa [IdLine.text] using ⟨hdigits, line.call.nul, htail, hblank⟩
  exact List.takeWhile_eq_self_iff.mpr (decide_ne_of_not_mem hnul)

/-- The id is taken off. -/
theorem split_text (line : IdLine) :
    split line.text 0x2c =
      some (line.digits, trim (line.call.text ++ (line.tail.text ++ line.ending))) := by
  have hcomma : (0x2c : UInt8) ∉ line.digits := fun h => absurd (line.digit _ h) (by decide)
  have hspace : ∀ c ∈ line.digits, ¬ isspace c = true := fun c hc =>
    Bool.eq_false_iff.mp (not_isspace_of_digit (line.digit c hc))
  have hdigits : trim line.digits = line.digits := by
    have hr : rtrim line.digits = line.digits :=
      List.rdropWhile_eq_self_iff.mpr fun hne => hspace _ (List.getLast_mem hne)
    have hl : ltrim line.digits = line.digits :=
      List.dropWhile_eq_self_iff.mpr fun hpos => hspace _ (List.getElem_mem hpos)
    rw [trim, hr, hl]
  rw [IdLine.text, split_append line.digits_ne hcomma,
    if_pos (line.call.length_trim_append_pos _), hdigits]

/-- Something is left behind the name only in a complete line. -/
theorem length_trim_rest_pos_iff {rest ending : CStr} (h : ∀ c ∈ ending, isspace c = true) :
    (trim (rtrim (rtrim (rest ++ ending)))).length > 0 ↔ ∃ c ∈ rest, isspace c = false := by
  rw [trim_rtrim, trim_rtrim, gt_iff_lt, List.length_pos_iff, Ne, trim_eq_nil_iff]
  push Not
  constructor
  · rintro ⟨c, hc, hspace⟩
    obtain hc | hc := List.mem_append.mp hc
    · exact ⟨c, hc, Bool.eq_false_iff.mpr hspace⟩
    · exact absurd (h c hc) hspace
  · rintro ⟨c, hc, hspace⟩
    exact ⟨c, List.mem_append_left _ hc, Bool.eq_false_iff.mp hspace⟩

/-- What `read_dmrids` takes from a line. -/
theorem readDmrid_text (ids : List (DmrId × CStr)) (line : IdLine) :
    readDmrid ids (untilNul line.text) =
      match line.read with
      | none => ids
      | some text => dmrIdAdd ids line.id text := by
  have hshort := line.short
  have htake : line.call.text.take 62 = line.call.text := List.take_of_length_le (by omega)
  rw [line.untilNul_text, readDmrid, split_text]
  simp only [line.ofInt_atoi, if_neg line.id_ne]
  -- each kind of line, from the first `split` to the text that is stored
  cases htail : line.tail with
  | empty =>
    have htext : trim (line.call.text ++ ([] ++ line.ending)) = line.call.text :=
      line.call.trim_append_blank line.blank
    simp only [IdTail.text, htext, line.call.split_last, IdLine.read, htail]
  | withName name =>
    have htext : trim (line.call.text ++ (0x2c :: name.text ++ line.ending)) =
        line.call.text ++ 0x2c :: name.text := by
      rw [List.cons_append, line.call.trim_append_comma, rtrim_append_blank line.blank, name.rtrim]
    have hsplit : split (line.call.text ++ 0x2c :: name.text) 0x2c =
        some (line.call.text, name.text) := by
      rw [line.call.split_comma, name.trimmed, if_pos (List.length_pos_iff.mpr name.nonempty)]
    -- a name without a rest is not split off, so the call stands alone
    have hincomplete : ¬ line.Complete := IdLine.not_complete (by simp [htail])
    simp only [IdTail.text, htext, hsplit, name.split_last, htake, IdLine.read, htail,
      if_neg hincomplete]
  | withRest name rest hrest =>
    rw [htail] at hshort
    have htext : trim (line.call.text ++ (0x2c :: (name.text ++ 0x2c :: rest) ++ line.ending)) =
        line.call.text ++ 0x2c :: (name.text ++ 0x2c :: rtrim (rest ++ line.ending)) := by
      rw [List.cons_append, line.call.trim_append_comma, List.append_assoc, List.cons_append,
        rtrim_append_cons _ (by decide)]
    have hsplit : split
        (line.call.text ++ 0x2c :: (name.text ++ 0x2c :: rtrim (rest ++ line.ending))) 0x2c =
          some (line.call.text, name.text ++ 0x2c :: rtrim (rtrim (rest ++ line.ending))) := by
      rw [line.call.split_comma, if_pos (name.length_trim_append_pos _), name.trim_append_comma]
    have hcomplete : line.Complete ↔ ∃ c ∈ rest, isspace c = false := by
      rw [IdLine.Complete, htail]
    simp only [IdTail.text, htext, hsplit, name.split_comma, length_trim_rest_pos_iff line.blank,
      ← hcomplete, IdLine.read, htail]
    -- the rest counts if anything is left of it when it is trimmed
    by_cases h : line.Complete
    · have hexpected : line.expected =
          line.call.text ++ bytes " (" ++ name.text ++ bytes ")" := by
        rw [IdLine.expected, htail]
        rfl
      have hpos : name.text.length > 0 := List.length_pos_iff.mpr name.nonempty
      -- call and name together fit the 62 bytes that are kept
      have hfits : line.expected.take 62 = line.expected := by
        refine List.take_of_length_le ?_
        have hparens : (bytes " (").length = 2 ∧ (bytes ")").length = 1 := by decide
        simp only at hshort
        simp only [hexpected, List.length_append]
        omega
      simp only [if_pos h, if_pos hpos, ← hexpected, hfits]
    · simp only [if_neg h, htake]

/-! ## The file

The ids are added line by line, and the first name of an id stays.
-/

theorem dmrIdName_add (ids : List (DmrId × CStr)) (id id' : DmrId) (name : CStr) :
    dmrIdName (dmrIdAdd ids id name) id' =
      (dmrIdName ids id').or (if id = id' then some name else none) := by
  unfold dmrIdName dmrIdAdd
  split
  · next hany =>
    by_cases heq : id = id'
    · subst heq
      obtain ⟨e, he, hid⟩ := List.any_eq_true.mp hany
      have hsome : (ids.find? fun e => e.1 = id).isSome := List.find?_isSome.mpr ⟨e, he, hid⟩
      obtain ⟨e', he'⟩ := Option.isSome_iff_exists.mp hsome
      rw [he']
      rfl
    · rw [if_neg heq, Option.or_none]
  · rw [List.find?_append, Option.map_or]
    congr 1
    rw [List.find?_singleton]
    split_ifs <;> simp_all

/-- The text of the first line of an id that is read. -/
def firstText (file : List IdLine) (id : DmrId) : Option CStr :=
  file.findSome? fun line => if line.id = id then line.read else none

theorem firstText_cons (line : IdLine) (file : List IdLine) (id : DmrId) :
    firstText (line :: file) id =
      (if line.id = id then line.read else none).or (firstText file id) := by
  rw [firstText, List.findSome?_cons]
  cases (if line.id = id then line.read else none) <;> rfl

/-- What an id resolves to after a file has been read. -/
theorem dmrIdName_foldl (file : List IdLine) (ids : List (DmrId × CStr)) (id : DmrId) :
    dmrIdName (((file.map (·.text)).map untilNul).foldl readDmrid ids) id =
      (dmrIdName ids id).or (firstText file id) := by
  induction file generalizing ids with
  | nil => exact (Option.or_none).symm
  | cons line file ih =>
    rw [List.map_cons, List.map_cons, List.foldl_cons, ih, readDmrid_text, firstText_cons]
    cases hread : line.read with
    | none =>
      simp only [ite_self]
      rfl
    | some text =>
      simp only [dmrIdName_add, Option.or_assoc]

/-- After the file has been read, each of its ids resolves to what its first line says. -/
def IdsResolve (env : ConfigEnv) (filename : CStr) (ids : List (DmrId × CStr))
    (file : List IdLine) : Prop :=
  ∃ ids', readDmrids env filename ids = some ids' ∧
    ∀ pre line post, file = pre ++ line :: post → line.id ∉ pre.map (·.id) →
      dmrIdName ids' line.id = some line.expected

/-- The first of the lines `post` that is of the id and has a name reads as `call`. -/
def LaterReads (id : DmrId) (call : CStr) (post : List IdLine) : Prop :=
  ∃ mid later post', post = mid ++ later :: post' ∧ later.id = id ∧ later.read = some call ∧
    ∀ line ∈ mid, line.id = id → line.tail = .empty

/-- An id is known under the right name already; or its first line is complete, or is without a
name and followed by one that happens to read as its call. -/
def IdsReadable (ids : List (DmrId × CStr)) (file : List IdLine) : Prop :=
  ∀ pre line post, file = pre ++ line :: post → line.id ∉ pre.map (·.id) →
    match dmrIdName ids line.id with
    | some name => name = line.expected
    | none => line.Complete ∨ line.tail = .empty ∧ LaterReads line.id line.call.text post

theorem IdLine.read_eq_none_iff (line : IdLine) : line.read = none ↔ line.tail = .empty := by
  unfold IdLine.read
  cases line.tail <;> simp

theorem firstText_eq_some_iff (file : List IdLine) (id : DmrId) (text : CStr) :
    firstText file id = some text ↔ LaterReads id text file := by
  have hskip (line : IdLine) : (if line.id = id then line.read else none) = none ↔
      (line.id = id → line.tail = .empty) := by
    rw [ite_eq_right_iff, line.read_eq_none_iff]
  have hread (line : IdLine) : (if line.id = id then line.read else none) = some text ↔
      line.id = id ∧ line.read = some text := by
    split_ifs with hid <;> simp [hid]
  unfold firstText LaterReads
  rw [List.findSome?_eq_some_iff]
  simp only [hskip, hread, and_assoc]

theorem named_ne (call name : IdField) : named call name ≠ call.text := by
  intro h
  have hlen := congrArg List.length h
  have hparens : (bytes " (").length = 2 := by decide
  simp only [named, List.length_append] at hlen
  omega

/-- A line with a name is read right only if it is complete. -/
theorem IdLine.read_eq_expected_iff {line : IdLine} (h : line.tail ≠ .empty) :
    line.read = some line.expected ↔ line.Complete := by
  have hne : line.expected ≠ line.call.text := by
    unfold IdLine.expected
    cases htail : line.tail with
    | empty => exact absurd htail h
    | withName name | withRest name => exact named_ne line.call name
  have hread : line.read = some (if line.Complete then line.expected else line.call.text) := by
    unfold IdLine.read
    cases htail : line.tail with
    | empty => exact absurd htail h
    | withName | withRest => rfl
  rw [hread, Option.some.injEq]
  split_ifs with hcomplete
  · exact iff_of_true rfl hcomplete
  · exact iff_of_false hne.symm hcomplete

theorem firstText_cons_self (line : IdLine) (post : List IdLine) :
    firstText (line :: post) line.id = line.read.or (firstText post line.id) := by
  rw [firstText_cons, if_pos rfl]

/-- What the first line of an id makes of it. -/
theorem firstText_cons_eq_expected_iff (line : IdLine) (post : List IdLine) :
    firstText (line :: post) line.id = some line.expected ↔
      line.Complete ∨ line.tail = .empty ∧ LaterReads line.id line.call.text post := by
  rw [← firstText_eq_some_iff, firstText_cons_self]
  by_cases htail : line.tail = .empty
  · have hincomplete : ¬ line.Complete := IdLine.not_complete (by simp [htail])
    have hexpected : line.expected = line.call.text := by rw [IdLine.expected, htail]
    rw [or_iff_right hincomplete, and_iff_right htail, hexpected, line.read_eq_none_iff.mpr htail,
      Option.none_or]
  · obtain ⟨text, htext⟩ := Option.ne_none_iff_exists'.mp (line.read_eq_none_iff.not.mpr htail)
    rw [or_iff_left fun h => htail h.1, ← IdLine.read_eq_expected_iff htail, htext,
      Option.some_or]

/-- The lines before the first one of an id do not matter. -/
theorem firstText_append {pre : List IdLine} {id : DmrId} (h : id ∉ pre.map (·.id))
    (post : List IdLine) : firstText (pre ++ post) id = firstText post id := by
  have hpre : firstText pre id = none := by
    refine List.findSome?_eq_none_iff.mpr fun line hline => if_neg fun hid => h ?_
    exact List.mem_map.mpr ⟨line, hline, hid⟩
  unfold firstText at hpre ⊢
  rw [List.findSome?_append, hpre, Option.none_or]

/-- **The file of DMR ids.** Whatever has been read before, the ids of a file resolve to what
their first lines say exactly when each is known under the right name already, or its first line
has a name and a rest that is not blank, or has no name and the next line of the id that has one
reads as the call. -/
theorem dmrids_resolve_iff {env : ConfigEnv} {filename : CStr} {file : List IdLine}
    (henv : env.file filename = some (file.map (·.text))) (ids : List (DmrId × CStr)) :
    IdsResolve env filename ids file ↔ IdsReadable ids file := by
  have hread : readDmrids env filename ids =
      some (((file.map (·.text)).map untilNul).foldl readDmrid ids) := by
    rw [readDmrids, henv, Option.map_some]
  unfold IdsResolve IdsReadable
  rw [hread]
  simp only [Option.some.injEq, exists_eq_left']
  refine forall₄_congr fun pre line post hfile => forall_congr' fun hfirst => ?_
  rw [dmrIdName_foldl, hfile, firstText_append hfirst]
  cases hknown : dmrIdName ids line.id with
  | some name => rw [Option.some_or, Option.some.injEq]
  | none => rw [Option.none_or, firstText_cons_eq_expected_iff]

/-- The line `1,N0CALL`, with `,Op,NL` or without. -/
def exampleLine (complete : Bool) : IdLine where
  id := 1
  digits := bytes "1"
  call := ⟨bytes "N0CALL", by decide, by decide, by decide, by decide⟩
  tail :=
    if complete then
      .withRest ⟨bytes "Op", by decide, by decide, by decide, by decide⟩ (bytes "NL") (by decide)
    else .empty
  ending := bytes "\n"
  id_ne := by decide
  digits_ne := by decide
  digit := List.forall_mem_singleton.mpr (by decide)
  reads := by decide
  blank := List.forall_mem_singleton.mpr (by decide)
  short := by cases complete <;> decide

/-- A file with a complete line. -/
theorem dmrids_resolve_iff_complete :
    IdsResolve (envOf [bytes "1,N0CALL,Op,NL\n"]) (bytes "ids.csv") [] [exampleLine true] ↔
      IdsReadable [] [exampleLine true] :=
  dmrids_resolve_iff (by decide) []

/-- The only line of a file ends with the call. -/
theorem not_dmrids_resolve :
    let env := envOf [bytes "1,N0CALL\n"]
    env.file (bytes "ids.csv") = some ([exampleLine false].map (·.text)) ∧
      ¬ IdsResolve env (bytes "ids.csv") [] [exampleLine false] := by
  refine ⟨by decide, fun h => ?_⟩
  obtain ⟨ids', hread, hresolve⟩ := h
  have hids : readDmrids (envOf [bytes "1,N0CALL\n"]) (bytes "ids.csv") [] = some [] := by decide
  rw [hids, Option.some.injEq] at hread
  subst hread
  exact absurd (hresolve [] _ [] rfl List.not_mem_nil) (by decide)

end Dmrlib
