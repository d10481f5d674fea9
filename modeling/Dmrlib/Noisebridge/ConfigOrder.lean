import Dmrlib.Noisebridge.ConfigSafety

/-!
# The order of sections

A configuration is made of sections and of keys between them, in any order. `read_config`
sets the timeout to its default at every line between sections, so a section that follows
the repeater's own undoes what that one has set: `timeouts_eq_iff`.

- `Chunk`: a section with its lines, or a key between sections.
- `MadeOf`: the lines of a file that matter are those of the chunks, in this order.
- `Chunk.timeout`: the timeout after a chunk, whatever it was before.
- `timeouts_eq_iff`: two orders of the same chunks both keep the timeout of the repeater exactly if
  its section comes last in both, or sets the default.
-/

namespace Dmrlib

open CString Run

/-- What a configuration is made of: a section, with its first line and those up to the last,
or a line with a key. -/
inductive Chunk where
  | block (header : CStr) (body : List CStr)
    (hheader : ¬ Ignored header ∧ header.getLast? = some 0x7b)
    (hbody : ∀ line ∈ body, ¬ Ignored line ∧ line ≠ bytes "\x7d")
  | key (line : CStr) (hline : ¬ Ignored line ∧ line.getLast? ≠ some 0x7b)

namespace Chunk

def lines : Chunk → List CStr
  | block header body _ _ => header :: body ++ [bytes "\x7d"]
  | key line _ => [line]

/-- A section `repeater`. -/
def isRepeater : Chunk → Bool
  | block header _ _ _ => sectionName header = some (bytes "repeater")
  | key _ _ => false

/-- The value of a line `timeout = value`. -/
def timeoutLine (line : CStr) : Option Int :=
  match split line 0x3d with
  | some (k, v) => if k = bytes "timeout" then some (atoi v) else none
  | none => none

/-- The values of the lines `timeout = value`. -/
def timeouts : Chunk → List Int
  | block _ body _ _ => body.filterMap timeoutLine
  | key _ _ => []

end Chunk

/-- The text consists of the chunks, in this order, with comments and blank lines anywhere. -/
def MadeOf (chunks : List Chunk) (lines : List (List UInt8)) : Prop :=
  (lines.map cleanLine).filter (fun line => ¬ Ignored line) = chunks.flatMap Chunk.lines

/-! ## Lines that do not matter -/

theorem parseLines_eq_ok_iff {env : ConfigEnv} {config config' : Config}
    {lines : List (List UInt8)} :
    parseLines env config lines = some (.ok config') ↔
      after (parseStep env) config (lines.map cleanLine) = some config' := by
  induction lines generalizing config with
  | nil => simp [parseLines, after]
  | cons line lines ih =>
    rw [parseLines, List.map_cons, after, parseStep]
    cases parseLine env config (cleanLine line) with
    | none => simp
    | some r =>
      cases r with
      | error ret => simp
      | ok c => exact ih

/-- A comment or a blank line changes nothing, in whatever section. -/
theorem Config.Inv.parseStep_ignored {env : ConfigEnv} {config : Config} (hinv : config.Inv)
    {line : CStr} (h : Ignored line) : parseStep env config line = some config := by
  rw [parseStep_eq_some]
  by_cases hsection : config.parseSection = .readConfig
  · rw [parseLine, hsection]
    exact if_pos h
  · obtain ⟨r, hr, hignored, -⟩ := hinv.sectionEffect hsection line
    rw [hr, hignored h]

/-- What is accepted is what the lines that matter leave. -/
theorem Config.Inv.after_filter {env : ConfigEnv} {config : Config} (hinv : config.Inv)
    (lines : List CStr) :
    after (parseStep env) config (lines.filter fun line => ¬ Ignored line) =
      after (parseStep env) config lines := by
  induction lines generalizing config with
  | nil => rfl
  | cons line lines ih =>
    by_cases h : Ignored line
    · rw [List.filter_cons_of_neg (by simpa using h), after, hinv.parseStep_ignored h]
      exact ih hinv
    · rw [List.filter_cons_of_pos (by simpa using h), after, after]
      cases hstep : parseStep env config line with
      | none => rfl
      | some c => exact ih (hinv.step hstep)

/-! ## What a chunk leaves -/

/-- The timeout that the lines of a section leave, where they find `timeout`. -/
def bodyTimeout (parseSection : ParseSection) (body : List CStr) (timeout : UInt16) : UInt16 :=
  body.foldl (fun timeout line => (lineTimeout parseSection line).getD timeout) timeout

/-- The timeout after a chunk. -/
def Chunk.timeout : Chunk → UInt16
  | .block header body _ _ =>
    if sectionName header = some (bytes "repeater") then
      bodyTimeout .readConfigRepeater body 180
    else 180
  | .key _ _ => 180

/-- Inside a section, lines that do not close it. -/
theorem Config.Inv.after_body {env : ConfigEnv} {config config' : Config} (hinv : config.Inv)
    (hsection : config.parseSection ≠ .readConfig) {body : List CStr}
    (hbody : ∀ line ∈ body, ¬ Ignored line ∧ line ≠ bytes "\x7d")
    (h : after (parseStep env) config body = some config') :
    config'.Inv ∧ config'.parseSection = config.parseSection ∧
      config'.timeout = bodyTimeout config.parseSection body config.timeout := by
  induction body generalizing config with
  | nil =>
    cases h
    exact ⟨hinv, rfl, rfl⟩
  | cons line body ih =>
    obtain ⟨c, hstep, hrest⟩ := Option.bind_eq_some_iff.mp h
    rw [List.forall_mem_cons] at hbody
    obtain ⟨r, hr, -, heffect⟩ := @Config.Inv.sectionEffect env config hinv hsection line
    rw [parseStep_eq_some.mp hstep, Option.some.injEq] at hr
    cases heffect c hr.symm with
    | ignored hignored => exact absurd hignored hbody.1.1
    | closed _ hline => exact absurd hline hbody.1.2
    | assigned _ _ hsame hkinds htimeout =>
      obtain ⟨hinv', hsection', htimeout'⟩ :=
        ih (hinv.step hstep) (hsame ▸ hsection) hbody.2 hrest
      refine ⟨hinv', hsection'.trans hsame, ?_⟩
      rw [htimeout', hsame, htimeout]
      rfl

theorem bodyTimeout_other {parseSection : ParseSection}
    (h : parseSection ≠ .readConfigRepeater) (body : List CStr) (timeout : UInt16) :
    bodyTimeout parseSection body timeout = timeout := by
  induction body with
  | nil => rfl
  | cons line body ih =>
    rw [bodyTimeout, List.foldl_cons, lineTimeout_other h]
    exact ih

/-- A chunk that is accepted begins and ends between sections. -/
theorem Config.Inv.after_chunk {env : ConfigEnv} {config config' : Config} (hinv : config.Inv)
    (htop : config.parseSection = .readConfig) (chunk : Chunk)
    (h : after (parseStep env) config chunk.lines = some config') :
    config'.Inv ∧ config'.parseSection = .readConfig ∧ config'.timeout = chunk.timeout := by
  cases chunk with
  -- a key between sections sets the default before it is read
  | key line hline =>
    obtain ⟨c, hstep, hrest⟩ := Option.bind_eq_some_iff.mp h
    cases hrest
    have hread := parseStep_eq_some.mp hstep
    rw [parseLine, htop] at hread
    cases topEffect_readConfig hinv hread with
    | ignored hignored => exact absurd hignored hline.1
    | opened _ hbrace => exact absurd hbrace hline.2
    | key => exact ⟨hinv.step hstep, htop, rfl⟩
  | block header body hheader hbody =>
    obtain ⟨opened, hstep, hrest⟩ := Option.bind_eq_some_iff.mp h
    have hread := parseStep_eq_some.mp hstep
    rw [parseLine, htop] at hread
    cases topEffect_readConfig hinv hread with
    | ignored hignored => exact absurd hignored hheader.1
    | key _ hbrace => exact absurd hheader.2 hbrace
    | @opened _ name _ _ hname hopened =>
      -- the section is opened with the default, its lines follow, and the brace closes it
      have hbodyrun : after (parseStep env) opened (body ++ [bytes "\x7d"]) = some config' := hrest
      rw [after_append] at hbodyrun
      obtain ⟨last, hlast, hclose⟩ := Option.bind_eq_some_iff.mp hbodyrun
      obtain ⟨hinvlast, hsame, htimeout⟩ :=
        hopened.inv.after_body hopened.section_ne hbody hlast
      obtain ⟨c, hcstep, hcrest⟩ := Option.bind_eq_some_iff.mp hclose
      cases hcrest
      obtain ⟨r, hr, -, heffect⟩ :=
        @Config.Inv.sectionEffect env last hinvlast (hsame ▸ hopened.section_ne) (bytes "\x7d")
      rw [parseStep_eq_some.mp hcstep, Option.some.injEq] at hr
      cases heffect config' hr.symm with
      | ignored hignored => exact absurd hignored (by decide)
      | assigned _ hne => exact absurd rfl hne
      | closed _ _ hsection _ hkept =>
        refine ⟨hinvlast.step hcstep, hsection, ?_⟩
        have hdefault : opened.timeout = 180 := hopened.timeout
        -- the timeout is that of the lines, which count in a section `repeater` only
        rw [hkept, htimeout, hdefault, Chunk.timeout]
        have hrepeater := hopened.repeater
        split
        · next hsome =>
          rw [hname, Option.some.injEq] at hsome
          rw [hrepeater.mpr hsome]
        · next hsome =>
          rw [hname, Option.some.injEq] at hsome
          exact bodyTimeout_other (fun h => hsome (hrepeater.mp h)) body 180

/-- The timeout is what the last chunk leaves. -/
theorem Config.Inv.after_chunks {env : ConfigEnv} {config config' : Config} (hinv : config.Inv)
    (htop : config.parseSection = .readConfig) {chunks : List Chunk}
    (h : after (parseStep env) config (chunks.flatMap Chunk.lines) = some config') :
    config'.timeout = (chunks.getLast?.map Chunk.timeout).getD config.timeout := by
  induction chunks generalizing config with
  | nil =>
    cases h
    rfl
  | cons chunk chunks ih =>
    rw [List.flatMap_cons, after_append] at h
    obtain ⟨c, hchunk, hrest⟩ := Option.bind_eq_some_iff.mp h
    obtain ⟨hinv', htop', htimeout⟩ := hinv.after_chunk htop chunk hchunk
    rw [ih hinv' htop' hrest, htimeout, List.getLast?_cons]
    cases chunks.getLast? <;> rfl

/-! ## The timeout -/

theorem lineTimeout_repeater (line : CStr) :
    lineTimeout .readConfigRepeater line = (Chunk.timeoutLine line).map UInt16.ofInt := by
  rw [lineTimeout, if_pos rfl, Chunk.timeoutLine]
  cases split line 0x3d with
  | none => rfl
  | some kv =>
    simp only
    split <;> rfl

/-- The last of the lines that set the timeout decides. -/
theorem bodyTimeout_repeater (body : List CStr) (timeout : UInt16) :
    bodyTimeout .readConfigRepeater body timeout =
      ((body.filterMap Chunk.timeoutLine).getLast?.map UInt16.ofInt).getD timeout := by
  induction body generalizing timeout with
  | nil => rfl
  | cons line body ih =>
    have hfold : bodyTimeout .readConfigRepeater (line :: body) timeout =
        bodyTimeout .readConfigRepeater body
          ((lineTimeout .readConfigRepeater line).getD timeout) := rfl
    rw [hfold, ih, lineTimeout_repeater]
    cases hline : Chunk.timeoutLine line with
    | none => rw [List.filterMap_cons_none hline]; rfl
    | some n =>
      rw [List.filterMap_cons_some hline, List.getLast?_cons]
      cases (body.filterMap Chunk.timeoutLine).getLast? <;> rfl

/-- A section that sets the timeout once leaves that value … -/
theorem Chunk.timeout_repeater {chunk : Chunk} {n : Int} (hrepeater : chunk.isRepeater)
    (htimeouts : chunk.timeouts = [n]) : chunk.timeout = UInt16.ofInt n := by
  cases chunk with
  | key => cases htimeouts
  | block header body _ _ =>
    have hname : sectionName header = some (bytes "repeater") := by
      simpa [isRepeater] using hrepeater
    have hbody : body.filterMap timeoutLine = [n] := htimeouts
    rw [Chunk.timeout, if_pos hname, bodyTimeout_repeater, hbody]
    rfl

/-- … and any other chunk leaves the default. -/
theorem Chunk.timeout_other {chunk : Chunk} (h : chunk.isRepeater = false) :
    chunk.timeout = 180 := by
  cases chunk with
  | key => rfl
  | block header body _ _ =>
    have hname : ¬ sectionName header = some (bytes "repeater") := by
      simpa [isRepeater] using h
    rw [Chunk.timeout, if_neg hname]

/-- A configuration with one section `repeater`, which sets the timeout once, keeps the value
if that section is the last chunk, or if the value is the default. -/
theorem timeout_eq_iff {env : ConfigEnv} {filename : CStr} {lines : List (List UInt8)}
    {config : Config} (hfile : env.file filename = some lines) {chunks : List Chunk}
    (hmade : MadeOf chunks lines) {repeater : Chunk}
    (hrepeater : chunks.filter Chunk.isRepeater = [repeater]) {n : Nat} (hn : n < 65536)
    (htimeouts : repeater.timeouts = [(n : Int)])
    (hok : initConfig env filename = some (.ok config)) :
    config.timeout.toNat = n ↔ n = 180 ∨ chunks.getLast? = some repeater := by
  obtain ⟨lines', hfile', hparse⟩ := initConfig_eq_ok hok
  cases hfile.symm.trans hfile'
  rw [parseLines_eq_ok_iff, ← Config.inv_initial.after_filter, hmade] at hparse
  -- only the last chunk decides
  have htimeout := Config.inv_initial.after_chunks rfl hparse
  have hmem : ∀ chunk ∈ chunks, chunk.isRepeater → chunk = repeater := by
    intro chunk hchunk his
    have hfilter : chunk ∈ chunks.filter Chunk.isRepeater := List.mem_filter.mpr ⟨hchunk, his⟩
    rwa [hrepeater, List.mem_singleton] at hfilter
  have his : repeater ∈ chunks ∧ repeater.isRepeater := by
    rw [← List.mem_filter, hrepeater]
    exact List.mem_singleton_self repeater
  have hvalue : (UInt16.ofInt (n : Int)).toNat = n := by
    have hofNat : UInt16.ofInt (n : Int) = UInt16.ofNat n := by
      have hmod : ((n : Int) % 2 ^ 16).toNat = n := by omega
      rw [UInt16.ofInt, hmod]
    rw [hofNat, UInt16.toNat_ofNat', Nat.mod_eq_of_lt hn]
  cases hlast : chunks.getLast? with
  | none =>
    rw [List.getLast?_eq_none_iff] at hlast
    rw [hlast] at his
    exact absurd his.1 List.not_mem_nil
  | some last =>
    rw [hlast] at htimeout
    have htimeout' : config.timeout = last.timeout := htimeout
    rw [htimeout', Option.some.injEq]
    -- it is the repeater's, or another one, which leaves the default
    by_cases hr : last.isRepeater
    · have heq : last = repeater := hmem last (List.mem_of_getLast? hlast) hr
      rw [heq, Chunk.timeout_repeater his.2 htimeouts, hvalue]
      exact iff_of_true rfl (.inr rfl)
    · have hne : last ≠ repeater := fun h => hr (h ▸ his.2)
      rw [Chunk.timeout_other (by simpa using hr), or_iff_left hne]
      exact eq_comm

/-- **The order of sections.** Of two configurations made of the same chunks, both keep the
timeout of the section `repeater` if and only if that section comes last in both, or sets
what is the default. -/
theorem timeouts_eq_iff {env env' : ConfigEnv} {filename filename' : CStr}
    {lines lines' : List (List UInt8)} {config config' : Config}
    (hfile : env.file filename = some lines) (hfile' : env'.file filename' = some lines')
    {chunks chunks' : List Chunk} (hperm : chunks.Perm chunks') (hmade : MadeOf chunks lines)
    (hmade' : MadeOf chunks' lines') {repeater : Chunk}
    (hrepeater : chunks.filter Chunk.isRepeater = [repeater]) {n : Nat} (hn : n < 65536)
    (htimeouts : repeater.timeouts = [(n : Int)])
    (hok : initConfig env filename = some (.ok config))
    (hok' : initConfig env' filename' = some (.ok config')) :
    (config.timeout.toNat = n ∧ config'.timeout.toNat = n) ↔
      n = 180 ∨ chunks.getLast? = some repeater ∧ chunks'.getLast? = some repeater := by
  have hrepeater' : chunks'.filter Chunk.isRepeater = [repeater] := by
    have hfilter := hperm.symm.filter Chunk.isRepeater
    rw [hrepeater] at hfilter
    exact List.perm_singleton.mp hfilter
  rw [timeout_eq_iff hfile hmade hrepeater hn htimeouts hok,
    timeout_eq_iff hfile' hmade' hrepeater' hn htimeouts hok']
  tauto

/-! ## A modem and a script -/

/-- A section `mmdvm` with nothing in it. -/
def mmdvmChunk : Chunk := .block (bytes "mmdvm \x7b") [] (by decide) (by decide)

/-- A section `repeater` with a timeout of a minute. -/
def repeaterChunk : Chunk :=
  .block (bytes "repeater \x7b") [bytes "script = route.lua", bytes "timeout = 60"] (by decide)
    (by decide)

/-- A section `httpd` with a port. -/
def httpdChunk : Chunk := .block (bytes "httpd \x7b") [bytes "port = 8080"] (by decide) (by decide)

/-- A text without comments and blank lines. -/
def textOf (chunks : List Chunk) : List CStr := chunks.flatMap Chunk.lines

/-- The configuration of a modem and a script. -/
def modemConfig (timeout : UInt16) : Config :=
  { Config.initial with
    proto := [newMmdvm]
    script := some (bytes "route.lua")
    timeout }

/-- The web server in front of the modem or behind it, and the repeater last. -/
theorem timeouts_eq_iff_repeaterLast :
    let chunks := [httpdChunk, mmdvmChunk, repeaterChunk]
    let chunks' := [mmdvmChunk, httpdChunk, repeaterChunk]
    ∃ config config', initConfig (envOf (textOf chunks)) [] = some (.ok config) ∧
      initConfig (envOf (textOf chunks')) [] = some (.ok config') ∧
      ((config.timeout.toNat = 60 ∧ config'.timeout.toNat = 60) ↔
        60 = 180 ∨ chunks.getLast? = some repeaterChunk ∧
          chunks'.getLast? = some repeaterChunk) := by
  intro chunks chunks'
  have hfile : (envOf (textOf chunks)).file [] = some (textOf chunks) := rfl
  have hfile' : (envOf (textOf chunks')).file [] = some (textOf chunks') := rfl
  have hmade : MadeOf chunks (textOf chunks) := by rfl
  have hmade' : MadeOf chunks' (textOf chunks') := by rfl
  obtain ⟨config, hok⟩ : ∃ config, initConfig (envOf (textOf chunks)) [] = some (.ok config) :=
    ⟨_, rfl⟩
  obtain ⟨config', hok'⟩ : ∃ config, initConfig (envOf (textOf chunks')) [] = some (.ok config) :=
    ⟨_, rfl⟩
  exact ⟨config, config', hok, hok', timeouts_eq_iff (n := 60) hfile hfile' (.swap _ _ _) hmade
    hmade' (by rfl) (by decide) (by rfl) hok hok'⟩

/-- In front of the modem's section, the repeater's loses its timeout. -/
theorem not_timeouts_eq_repeaterFirst :
    [mmdvmChunk, repeaterChunk].Perm [repeaterChunk, mmdvmChunk] ∧
      MadeOf [mmdvmChunk, repeaterChunk] (textOf [mmdvmChunk, repeaterChunk]) ∧
      MadeOf [repeaterChunk, mmdvmChunk] (textOf [repeaterChunk, mmdvmChunk]) ∧
      repeaterChunk.timeouts = [60] ∧
      initConfig (envOf (textOf [mmdvmChunk, repeaterChunk])) [] = some (.ok (modemConfig 60)) ∧
      initConfig (envOf (textOf [repeaterChunk, mmdvmChunk])) [] = some (.ok (modemConfig 180)) ∧
      ¬ ((modemConfig 60).timeout.toNat = 60 ∧ (modemConfig 180).timeout.toNat = 60) :=
  ⟨.swap _ _ _, rfl, rfl, rfl, rfl, rfl, by decide⟩

end Dmrlib
