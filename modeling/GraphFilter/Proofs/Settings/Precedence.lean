import GraphFilter.Settings.Load
import GraphFilter.Proofs.Settings.Files

/-!
# Which settings count

Every setting of a run is that of the first source that has one: the command, the overlay file,
the file of the profile, the default.  A run of the loading steps ends with the first fault there
is, and the alias is judged last, as it comes out of all sources together.

Main results:

- Theorem {lit}`Layer.findSome?_foldr`: layers on top of each other, setting by setting.
- Theorem {lit}`Settings.run_precedence`: the settings and the faults of a run.
-/

namespace GraphFilter

/-! ## Layers on top of each other -/

namespace Layer

/-- A setting of layers on top of each other is that of the first one that has it. -/
theorem findSome?_foldr {α : Type} (setting : Layer → Option α) (hblank : setting blank = none)
    (honto : ∀ upper lower, setting (upper.onto lower) = (setting upper).or (setting lower))
    (layers : List Layer) : setting (layers.foldr onto blank) = layers.findSome? setting := by
  induction layers with
  | nil => exact hblank
  | cons upper layers ih =>
    rw [List.foldr_cons, honto, ih, List.findSome?_cons]
    cases setting upper <;> rfl

/-- The options of layers on top of each other, each found on its own. -/
theorem options_foldr (layers : List Layer) :
    (layers.foldr onto blank).options =
      { nodeAlias := (layers.findSome? Layer.nodeAlias).getD Options.default.nodeAlias
        strict := (layers.findSome? Layer.strict).getD Options.default.strict
        zeroPaging := (layers.findSome? Layer.zeroPaging).getD Options.default.zeroPaging } := by
  have hnodeAlias := findSome?_foldr Layer.nodeAlias rfl (fun _ _ => rfl) layers
  have hstrict := findSome?_foldr Layer.strict rfl (fun _ _ => rfl) layers
  have hzeroPaging := findSome?_foldr Layer.zeroPaging rfl (fun _ _ => rfl) layers
  rw [options, hnodeAlias, hstrict, hzeroPaging]

end Layer

/-! ## Loading steps -/

/-- What a loading step comes to: a fault if there is one, a result if not.  Its warnings are
left open. -/
def Load.Gives {α : Type} (step : Load α) (fault? : Option RunError) (a : α) : Prop :=
  ∀ before, ∃ after, step.run.run before = (fault?.elim (.ok a) .error, after)

namespace Load

variable {α β : Type}

theorem gives_pure (a : α) : Gives (pure a) none a :=
  fun before => ⟨before, rfl⟩

theorem gives_throw (fault : RunError) (a : α) : Gives (throw fault) (some fault) a :=
  fun before => ⟨before, rfl⟩

/-- Of two steps the first fault counts. -/
theorem Gives.bind {step : Load α} {next : α → Load β} {fault? next? : Option RunError} {a : α}
    {b : β} (h : Gives step fault? a) (hnext : Gives (next a) next? b) :
    Gives (step >>= next) (fault?.or next?) b := by
  intro before
  rcases h before with ⟨between, hstep⟩
  rw [ExceptT.run_bind, StateT.run_bind, hstep]
  cases fault? with
  | none => exact hnext between
  | some fault => exact ⟨between, rfl⟩

end Load

/-! ## Files -/

/-- A file has the text that it was written with. -/
theorem Entry.text_toUTF8 (text : String) : (Entry.file text.toUTF8).text = .ok text := by
  have hread : String.fromUTF8? text.toUTF8 = some text := by
    rw [String.fromUTF8?, String.toUTF8_eq_toByteArray, dif_pos text.isValidUTF8]
    rfl
  unfold Entry.text
  simp only [hread]

namespace Settings

/-! ## Sources -/

/-- The layer of a file, if it can be read and holds one. -/
def fileLayer? (entry : Entry) : Option Layer :=
  match entry.text with
  | .error _ => none
  | .ok text =>
    match SettingsFile.parse text with
    | .error _ => none
    | .ok file => file.layer

/-- The layer of the file of the profile, if there is a home directory and the file holds one. -/
def profileLayer? (host : Host) : Option Layer :=
  (profilePath host).bind fun path => fileLayer? (host.entry path)

/-- The layers that settings come from, the one that goes first in front. -/
def sources (host : Host) (given : GivenSettings) : List Layer :=
  given.layer ::
    [fileLayer? (host.entry (overlayPath host given.file)), profileLayer? host].filterMap id

/-- The options of a run: each one from the first source that has it. -/
def resolved (host : Host) (given : GivenSettings) : Options where
  nodeAlias := ((sources host given).findSome? Layer.nodeAlias).getD Options.default.nodeAlias
  strict := ((sources host given).findSome? Layer.strict).getD Options.default.strict
  zeroPaging := ((sources host given).findSome? Layer.zeroPaging).getD Options.default.zeroPaging

/-! ## Faults -/

/-- What is wrong with a file, shown in messages under a name of its own. -/
def fileFault? (shown : String) (entry : Entry) : Option RunError :=
  match entry.text with
  | .error fault => some (.settingsUnreadable shown fault)
  | .ok text =>
    match SettingsFile.parse text with
    | .error error => some (.settingsMalformed shown error)
    | .ok _ => none

/-- What is wrong with the file of the profile, if there is one. -/
def profileFault? (host : Host) : Option RunError :=
  (profilePath host).bind fun path =>
    let entry := host.entry path
    if entry.isPresent then fileFault? path entry else none

/-- What is wrong with the overlay file; only one that was named must be there. -/
def overlayFault? (host : Host) : Option String → Option RunError
  | some given =>
    let entry := host.entry (host.expand given)
    if entry.isPresent then fileFault? (host.expand given) entry
    else some (.settingsNotFound (host.expand given))
  | none =>
    let entry := host.entry (host.underDirectory fileName)
    if entry.isPresent then fileFault? fileName entry else none

/-- What is wrong with the alias of the options. -/
def aliasFault? (o : Options) : Option RunError :=
  if Cypher.isPlainName o.nodeAlias then none else some (.invalidAlias o.nodeAlias)

/-- All that is wrong, in the order in which it is found. -/
def faults (host : Host) (given : GivenSettings) : List RunError :=
  [profileFault? host, overlayFault? host given.file,
    aliasFault? (resolved host given)].filterMap id

/-! ## Steps -/

open Load (Gives gives_pure gives_throw)

/-- An entry that is absent holds no layer. -/
theorem fileLayer?_of_absent {entry : Entry} (h : entry.isPresent = false) :
    fileLayer? entry = none := by
  cases entry with
  | absent => rfl
  | directory => rfl
  | file => cases h
  | unreadable => cases h

/-- A file that is read has the layer of its section, and nothing is wrong with it. -/
theorem file_of_parse {entry : Entry} {text : String} {file : SettingsFile}
    (htext : entry.text = .ok text) (hfile : SettingsFile.parse text = .ok file) :
    fileLayer? entry = file.layer ∧ ∀ shown, fileFault? shown entry = none := by
  unfold fileLayer? fileFault?
  rw [htext]
  dsimp only
  rw [hfile]
  exact ⟨rfl, fun _ => rfl⟩

theorem gives_loadFile (shown : String) (entry : Entry) :
    Gives (loadFile shown entry) (fileFault? shown entry) ((fileLayer? entry).getD .blank) := by
  unfold loadFile fileFault? fileLayer?
  cases entry.text with
  | error fault => exact gives_throw _ _
  | ok text =>
    dsimp only
    cases SettingsFile.parse text with
    | error error => exact gives_throw _ _
    | ok file =>
      -- unknown names only add a warning
      dsimp only
      split
      · intro before
        exact ⟨_, rfl⟩
      · exact gives_pure _

/-- The layer of a file that may be missing. -/
theorem gives_loadPresent (shown : String) (entry : Entry) :
    Gives (if entry.isPresent then loadFile shown entry else return .blank)
      (if entry.isPresent then fileFault? shown entry else none)
      ((fileLayer? entry).getD .blank) := by
  split
  · exact gives_loadFile _ _
  · rename_i habsent
    rw [fileLayer?_of_absent (Bool.not_eq_true _ ▸ habsent)]
    exact gives_pure _

theorem gives_profileLayer (host : Host) : Gives (profileLayer host) (profileFault? host)
    ((profileLayer? host).getD .blank) := by
  unfold profileLayer profileFault? profileLayer?
  cases profilePath host with
  | none => exact gives_pure _
  | some path => exact gives_loadPresent path (host.entry path)

theorem gives_overlayLayer (host : Host) (given : Option String) :
    Gives (overlayLayer host given) (overlayFault? host given)
      ((fileLayer? (host.entry (overlayPath host given))).getD .blank) := by
  unfold overlayLayer overlayFault?
  cases given with
  | some path =>
    dsimp only [overlayPath]
    rw [if_pos Option.isSome_some]
    split
    · exact gives_loadFile _ _
    · exact gives_throw _ _
  | none =>
    dsimp only [overlayPath]
    rw [if_neg (by simp)]
    exact gives_loadPresent _ _

theorem gives_resolve (layer : Layer) :
    Gives (resolve layer) (aliasFault? layer.options) layer.options := by
  unfold resolve aliasFault?
  dsimp only
  split
  · exact gives_pure _
  · exact gives_throw _ _

/-- The layers that a run combines are its sources, and those that are missing count for nothing. -/
theorem options_onto (host : Host) (given : GivenSettings) :
    (given.layer.onto (((fileLayer? (host.entry (overlayPath host given.file))).getD .blank).onto
      ((profileLayer? host).getD .blank))).options =
        resolved host given := by
  have hall : given.layer.onto
      (((fileLayer? (host.entry (overlayPath host given.file))).getD .blank).onto
        ((profileLayer? host).getD .blank)) =
          (sources host given).foldr Layer.onto .blank := by
    unfold sources
    cases fileLayer? (host.entry (overlayPath host given.file)) <;>
      cases profileLayer? host <;> simp
  rw [hall, Layer.options_foldr]
  rfl

/-- A run comes to its first fault or, if there is none, to the options that are resolved. -/
theorem gives_load (host : Host) (given : GivenSettings) :
    Gives (load host given) (faults host given).head? (resolved host given) := by
  have hhead : (faults host given).head? = (profileFault? host).or
      ((overlayFault? host given.file).or (aliasFault? (resolved host given))) := by
    unfold faults
    cases profileFault? host <;> cases overlayFault? host given.file <;>
      cases aliasFault? (resolved host given) <;> rfl
  have hresolve := gives_resolve (given.layer.onto
    (((fileLayer? (host.entry (overlayPath host given.file))).getD .blank).onto
      ((profileLayer? host).getD .blank)))
  rw [options_onto] at hresolve
  rw [hhead]
  exact (gives_profileLayer host).bind ((gives_overlayLayer host given.file).bind hresolve)

theorem run_eq (host : Host) (given : GivenSettings) :
    (run host given).1 = (faults host given).head?.elim (.ok (resolved host given)) .error := by
  rcases gives_load host given [] with ⟨after, hrun⟩
  rw [run, hrun]

/-! ## Runs -/

/-- A run looks at the file of the profile and at the overlay file, and at nothing else. -/
theorem run_congr {host host' : Host} {given : GivenSettings} (hhome : host'.home = host.home)
    (hdirectory : host'.directory = host.directory)
    (hprofile : ∀ p ∈ profilePath host, host'.entry p = host.entry p)
    (hoverlay : host'.entry (overlayPath host given.file) =
      host.entry (overlayPath host given.file)) : run host' given = run host given := by
  have hprofilePath : profilePath host' = profilePath host := by
    rw [profilePath, Host.underHome, hhome]
    rfl
  have hoverlayPath : overlayPath host' given.file = overlayPath host given.file := by
    cases given.file with
    | some path =>
      rw [overlayPath, Host.expand, hhome, hdirectory]
      rfl
    | none =>
      rw [overlayPath, Host.underDirectory, hdirectory]
      rfl
  have hprofileLayer : profileLayer host' = profileLayer host := by
    unfold profileLayer
    rw [hprofilePath]
    cases hpath : profilePath host with
    | none => rfl
    | some path =>
      dsimp only
      rw [hprofile path hpath]
  have hoverlayLayer : overlayLayer host' given.file = overlayLayer host given.file := by
    unfold overlayLayer
    dsimp only
    rw [hoverlayPath, hoverlay]
  unfold run load
  rw [hprofileLayer, hoverlayLayer]

/-- What a file holds of each setting, from the value of its text. -/
theorem says_fileLayer? {entry : Entry} {text : String} {file : SettingsFile} {value : Json.Value}
    (htext : entry.text = .ok text) (hfile : SettingsFile.parse text = .ok file)
    (hvalue : Json.parse text = .ok value) (key : Layer.Key) :
    key.Says (SettingsFile.settingOf? key value) ((fileLayer? entry).getD .blank) := by
  rw [(file_of_parse htext hfile).1]
  exact SettingsFile.says_of_parse hvalue hfile key

/-- Each setting of a run is that of the first source that has one, null counting for nothing, and
a run fails with the first fault.  The alias that comes out is plain, whatever the sources below
hold, and with a file that is named only that file and the one of the profile matter. -/
theorem run_precedence (host : Host) (given : GivenSettings) :
    (∀ e, (run host given).1 = .error e ↔ (faults host given).head? = some e) ∧
    (∀ o, (run host given).1 = .ok o ↔ faults host given = [] ∧ o = resolved host given) ∧
    (∀ o, (run host given).1 = .ok o → Cypher.isPlainName o.nodeAlias = true) ∧
    (∀ path host', given.file = some path → host'.home = host.home →
      host'.directory = host.directory →
      (∀ p ∈ host.expand path :: (profilePath host).toList, host'.entry p = host.entry p) →
        run host' given = run host given) ∧
    ∀ entry text file value, entry.text = .ok text → SettingsFile.parse text = .ok file →
      Json.parse text = .ok value → ∀ key : Layer.Key,
        key.Says (SettingsFile.settingOf? key value) ((fileLayer? entry).getD .blank) := by
  have hrun := run_eq host given
  have hok (o : Options) :
      (run host given).1 = .ok o ↔ faults host given = [] ∧ o = resolved host given := by
    rw [hrun]
    cases faults host given with
    | nil =>
      change Except.ok (resolved host given) = Except.ok o ↔ _
      rw [Except.ok.injEq, eq_comm]
      exact (and_iff_right rfl).symm
    | cons fault rest =>
      constructor
      · intro h
        cases h
      · rintro ⟨h, -⟩
        cases h
  refine ⟨?_, hok, ?_, ?_, fun _ _ _ _ => says_fileLayer?⟩
  · intro e
    rw [hrun]
    cases (faults host given).head? with
    | none =>
      constructor <;> intro h <;> cases h
    | some fault =>
      constructor <;> intro h <;> cases h <;> rfl
  · intro o h
    rcases (hok o).mp h with ⟨hnone, rfl⟩
    rw [← Bool.not_eq_false]
    intro hplain
    have hfault : RunError.invalidAlias (resolved host given).nodeAlias ∈ faults host given :=
      List.mem_filterMap.mpr
        ⟨aliasFault? (resolved host given), by simp, by simp [aliasFault?, hplain]⟩
    rw [hnone] at hfault
    cases hfault
  · intro path host' hfile hhome hdirectory hsame
    refine run_congr hhome hdirectory (fun p hp => hsame p (by simp [Option.mem_def.mp hp])) ?_
    rw [hfile]
    exact hsame _ (by simp [overlayPath])

/-- The named file has the alias and leaves open what the profile says; the alias of the profile
is not plain, which does no harm, and a local file makes no difference. -/
theorem run_precedence_named :
    let profile := "\x7b\"compiler\":\x7b\"node_alias\":\"1\",\"strict\":true\x7d\x7d"
    let named := "\x7b\"compiler\":\x7b\"node_alias\":\"m\",\"strict\":null\x7d\x7d"
    let entry (path : String) : Entry :=
      if path = "/h/.cypher-filter/cypher-filter.json" then .file profile.toUTF8
      else if path = "/w/other.json" then .file named.toUTF8
      else .absent .missing
    let blocked (path : String) : Entry :=
      if path = "/w/cypher-filter.json" then .directory else entry path
    let given : GivenSettings := ⟨some "other.json", .blank⟩
    Cypher.isPlainName "1" = false ∧
      (run ⟨some "/h", some "/w", entry⟩ given).1 = .ok ⟨"m", true, false⟩ ∧
        run ⟨some "/h", some "/w", blocked⟩ given = run ⟨some "/h", some "/w", entry⟩ given ∧
          Layer.Key.Says .strict (some .null) ((fileLayer? (.file named.toUTF8)).getD .blank) := by
  intro profile named entry blocked given
  obtain ⟨-, hok, -, hsame, htells⟩ := run_precedence ⟨some "/h", some "/w", entry⟩ given
  have hprofile : SettingsFile.parse
      "\x7b\"compiler\":\x7b\"node_alias\":\"1\",\"strict\":true\x7d\x7d" =
        .ok ⟨some ⟨some "1", some true, none⟩, []⟩ := rfl
  have hnamed : SettingsFile.parse
      "\x7b\"compiler\":\x7b\"node_alias\":\"m\",\"strict\":null\x7d\x7d" =
        .ok ⟨some ⟨some "m", none, none⟩, []⟩ := rfl
  obtain ⟨hprofileLayer, hprofileFault⟩ := file_of_parse (Entry.text_toUTF8 profile) hprofile
  obtain ⟨hnamedLayer, hnamedFault⟩ := file_of_parse (Entry.text_toUTF8 named) hnamed
  have hprofilePath : profilePath ⟨some "/h", some "/w", entry⟩ =
      some "/h/.cypher-filter/cypher-filter.json" := by
    decide
  have hnamedPath : Host.expand ⟨some "/h", some "/w", entry⟩ "other.json" = "/w/other.json" := by
    decide
  have hprofileEntry : entry "/h/.cypher-filter/cypher-filter.json" = .file profile.toUTF8 :=
    if_pos rfl
  have hnamedEntry : entry "/w/other.json" = .file named.toUTF8 :=
    (if_neg (by decide)).trans (if_pos rfl)
  have hsources : sources ⟨some "/h", some "/w", entry⟩ given =
      [.blank, ⟨some "m", none, none⟩, ⟨some "1", some true, none⟩] := by
    simp only [sources, profileLayer?, given, overlayPath, hprofilePath, hnamedPath,
      Option.bind_some, hprofileEntry, hnamedEntry, hnamedLayer, hprofileLayer]
    rfl
  have hresolved : resolved ⟨some "/h", some "/w", entry⟩ given = ⟨"m", true, false⟩ := by
    rw [resolved, hsources]
    rfl
  have hfaults : faults ⟨some "/h", some "/w", entry⟩ given = [] := by
    simp only [faults, profileFault?, overlayFault?, given, hprofilePath, hnamedPath,
      Option.bind_some, hresolved, hprofileEntry, hnamedEntry, hprofileFault, hnamedFault]
    decide
  refine ⟨by decide, (hok _).mpr ⟨hfaults, hresolved.symm⟩, ?_, ?_⟩
  · refine hsame "other.json" ⟨some "/h", some "/w", blocked⟩ rfl rfl rfl ?_
    intro p hp
    rw [hprofilePath, hnamedPath, Option.toList_some, List.mem_cons, List.mem_singleton] at hp
    have hother : p ≠ "/w/cypher-filter.json" := by
      rcases hp with rfl | rfl <;> decide
    exact if_neg hother
  · have hvalue : Json.parse
        "\x7b\"compiler\":\x7b\"node_alias\":\"m\",\"strict\":null\x7d\x7d" = .ok (.object
      [("compiler", .object [("node_alias", .string "m"), ("strict", .null)])]) := rfl
    exact htells _ named _ _ (Entry.text_toUTF8 named) hnamed hvalue .strict

end Settings

end GraphFilter
