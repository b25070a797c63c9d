import GraphFilter.Settings.File
import GraphFilter.Proofs.Json.Lookup

/-!
# What a settings file says

A settings file that is read holds the settings of its section: a setting is open if its member
is missing or null, or if the section is.

Main results:

- Theorem {lit}`SettingsFile.says_of_parse`: the settings of a file, from the value of its text.
-/

namespace GraphFilter

open Json (Cursor)

/-! ## Sections -/

namespace Layer

/-- What a layer holds because of the value of a member: nothing if there is none but null. -/
def Key.Says : Key → Option Json.Value → Layer → Prop
  | nodeAlias, v?, l => l.nodeAlias.map .string = Json.Value.nonNull? v?
  | strict, v?, l => l.strict.map .bool = Json.Value.nonNull? v?
  | zeroPaging, v?, l => l.zeroPaging.map .bool = Json.Value.nonNull? v?

theorem Key.says_blank (key : Key) : key.Says none blank := by
  cases key <;> rfl

/-- A layer follows the values of its members. -/
theorem follows (depth : Nat) : record.Follows depth Key.Says := by
  constructor
  · exact Key.says_blank
  · intro key l c v c₁ l' c₂ hvalue h
    cases key with
    | nodeAlias =>
      rcases Json.exists_of_bind_eq_ok h with ⟨⟨s?, behind⟩, hread, h⟩
      cases h
      rcases Json.eq_of_readText hvalue hread with ⟨hplace, htells⟩
      refine ⟨hplace, htells, ?_⟩
      intro key' v? hne hother
      cases key' with
      | nodeAlias => exact absurd rfl hne
      | strict | zeroPaging => exact hother
    | strict =>
      rcases Json.exists_of_bind_eq_ok h with ⟨⟨b?, behind⟩, hread, h⟩
      cases h
      rcases Json.eq_of_readFlag hvalue hread with ⟨hplace, htells⟩
      refine ⟨hplace, htells, ?_⟩
      intro key' v? hne hother
      cases key' with
      | strict => exact absurd rfl hne
      | nodeAlias | zeroPaging => exact hother
    | zeroPaging =>
      rcases Json.exists_of_bind_eq_ok h with ⟨⟨b?, behind⟩, hread, h⟩
      cases h
      rcases Json.eq_of_readFlag hvalue hread with ⟨hplace, htells⟩
      refine ⟨hplace, htells, ?_⟩
      intro key' v? hne hother
      cases key' with
      | zeroPaging => exact absurd rfl hne
      | nodeAlias | strict => exact hother

/-- A section that is read follows its value, and null is a section where all is open. -/
theorem says_of_readOptional {depth : Nat} {v : Json.Value} {layer : Option Layer}
    {c c₁ c₂ : Cursor} (hvalue : Json.readValue (depth + 1) c = .ok (v, c₁))
    (h : readOptional (depth + 1) c = .ok (layer, c₂)) :
    c₂ = c₁ ∧ ∀ key : Key, key.Says (record.valueOf? key v) (layer.getD blank) := by
  have hinjective : Function.Injective record.name := by
    intro key key' h
    cases key <;> cases key' <;> first | rfl | exact absurd h (by decide)
  have hkeys (key : Key) : key ∈ record.keys := by
    cases key <;> decide
  rw [← Json.readValue_skipSpace] at hvalue
  unfold readOptional at h
  dsimp only at h
  split at h
  · rename_i heq
    rcases Json.exists_of_map_eq_ok h with ⟨behind, hword, heq'⟩
    cases heq'
    have hnull : Json.readValue (depth + 1) c.skipSpace = .ok (.null, c₂) := by
      rw [Json.readValue, c.skipSpace_skipSpace]
      simp only [heq, Json.readScalar, if_true]
      rw [hword]
      rfl
    cases hvalue.symm.trans hnull
    exact ⟨rfl, Key.says_blank⟩
  · rcases Json.exists_of_map_eq_ok h with ⟨⟨l, behind⟩, hread, heq⟩
    cases heq
    exact Json.Record.says_of_read (follows depth) hinjective hkeys (by decide) hvalue hread

end Layer

/-! ## Files -/

namespace SettingsFile

/-- The value of a setting in a file. -/
def settingOf? (key : Layer.Key) : Json.Value → Option Json.Value
  | .object members => (members.lookup layerName).bind (Layer.record.valueOf? key)
  | _ => none

/-- A section that follows the members so far follows the next one as well. -/
theorem says_of_readMember {depth : Nat} {members members' : List (String × Json.Value)}
    {state state' : SettingsFile × Bool} {name : String} {c c₁ c₂ : Cursor}
    (htells : ∀ key : Layer.Key,
      key.Says (settingOf? key (.object members)) (state.1.layer.getD .blank))
    (hvalue : Json.storeMember (depth + 1) members name c = .ok (members', c₁))
    (h : readMember (depth + 1) state name c = .ok (state', c₂)) :
    c₂ = c₁ ∧ ∀ key : Layer.Key,
      key.Says (settingOf? key (.object members')) (state'.1.layer.getD .blank) := by
  rcases state with ⟨file, seen⟩
  rcases Json.exists_of_bind_eq_ok hvalue with ⟨value, hcolon, hvalue⟩
  rcases Json.exists_of_bind_eq_ok hvalue with ⟨⟨v, _⟩, hvalue, heq⟩
  cases heq
  unfold readMember at h
  dsimp only at h
  split at h
  · rename_i hname
    split at h
    · cases h
    · rcases Json.exists_of_bind_eq_ok h with ⟨_, hcolon', h⟩
      cases hcolon.symm.trans hcolon'
      rcases Json.exists_of_bind_eq_ok h with ⟨⟨layer, behind⟩, hread, h⟩
      cases h
      rcases Layer.says_of_readOptional hvalue hread with ⟨rfl, hlayer⟩
      refine ⟨rfl, ?_⟩
      intro key
      rw [settingOf?, Json.Value.lookup_insertMember, if_pos hname.symm]
      exact hlayer key
  · rename_i hname
    rcases Json.exists_of_bind_eq_ok h with ⟨_, hcolon', h⟩
    cases hcolon.symm.trans hcolon'
    rcases Json.exists_of_bind_eq_ok h with ⟨⟨v', behind⟩, hread, h⟩
    cases hvalue.symm.trans hread
    cases h
    refine ⟨rfl, ?_⟩
    intro key
    rw [settingOf?, Json.Value.lookup_insertMember, if_neg (Ne.symm hname)]
    exact htells key

/-- The section follows the member of its name. -/
theorem says_of_readMembers {depth steps steps' : Nat} {members : List (String × Json.Value)}
    {file : SettingsFile} {seen : Bool} {c c₁ c₂ : Cursor}
    (hvalue : Json.readMembers (Json.storeMember (depth + 1)) steps true [] c = .ok (members, c₁))
    (h : Json.readMembers (readMember (depth + 1)) steps' true (⟨none, []⟩, false) c =
      .ok ((file, seen), c₂)) (key : Layer.Key) :
    key.Says (settingOf? key (.object members)) (file.layer.getD .blank) := by
  have hlockstep := Json.readMembers_lockstep (s := []) (t := (⟨none, []⟩, false))
    (fun members (state : SettingsFile × Bool) => ∀ key : Layer.Key,
      key.Says (settingOf? key (.object members)) (state.1.layer.getD .blank))
    ?_ Layer.Key.says_blank hvalue h
  · exact hlockstep.2 key
  · intro members state name c members' c₁ state' c₂
    exact says_of_readMember

/-- The settings of a file that is read, from the value of its text. -/
theorem says_of_parse {text : String} {value : Json.Value} {file : SettingsFile}
    (hvalue : Json.parse text = .ok value) (h : parse text = .ok file) (key : Layer.Key) :
    key.Says (settingOf? key value) (file.layer.getD .blank) := by
  rcases Json.readWhole?_eq_ok.mp hvalue with ⟨c₁, hvalue, -⟩
  rcases Json.readWhole?_eq_ok.mp h with ⟨c₂, h, -⟩
  rw [Json.depthLimit, Json.readValue] at hvalue
  unfold read at h
  dsimp only at hvalue h
  split at h
  · rename_i heq
    simp only [heq] at hvalue
    rcases Json.exists_of_map_eq_ok hvalue with ⟨⟨members, behind⟩, hmembers, heq'⟩
    cases heq'
    split at h
    · rename_i file' seen c' hread
      cases h
      exact says_of_readMembers hmembers hread key
    · cases h
  · rcases Json.exists_of_bind_eq_ok h with ⟨⟨v, c⟩, -, hrefuse⟩
    cases hrefuse

end SettingsFile

end GraphFilter
