import Forserino.Qt.Utf8
import Forserino.Common.TableModels
import Mathlib.Data.List.Forall2
import Mathlib.Data.List.TakeWhile

/-! The records that the settings are made of, and their JSON.

What a constructor computes from the fields of a record (regular expressions, emotes) is left out. How a bool is read is
up to the serialization library.
-/

set_option autoImplicit false

namespace Forserino.Common

open Forserino.Qt

/-! ## Members -/

/-- A value of rapidjson. -/
inductive RjValue where
  | null
  | bool (value : Bool)
  | number (value : Rat)
  | string (text : StdString)
  | array (items : List RjValue)
  | object (members : List (StdString × RjValue))
  deriving Repr

/-- obj[key], if there is such a member; the first one counts. -/
def RjValue.member? : RjValue → StdString → Option RjValue
  | .object members, key => (members.find? fun member => member.1 == key).map Prod.snd
  | _, _ => none

/-- rj::getSafe, with what is left in a variable of that value before, and with what an error leaves there. -/
def getSafe {α : Type} (deserialize : RjValue → Option α) (otherwise out : α) (value : RjValue) (key : StdString) : α × Bool :=
  match value.member? key with
  | none => (out, false)
  | some member =>
    match deserialize member with
    | none => (otherwise, false)
    | some read => (read, true)

def nul : Char := Char.ofNat 0

/-- The bytes of a text are taken as a C string. -/
def cString (s : QString) : StdString := (toUtf8 s).takeWhile (· != nul)

def serializeText (s : QString) : RjValue := .string (cString s)

def deserializeText : RjValue → Option QString
  | .string text => some (fromUtf8 text)
  | _ => none

/-- A text without lone surrogates and without NUL. -/
def Plain (s : QString) : Prop := WellFormed s ∧ u nul ∉ s

theorem nul_notMem_cString (s : QString) : nul ∉ cString s := by
  intro member
  simpa using List.mem_takeWhile_imp member

theorem fromUtf8_cString_iff {s : QString} : fromUtf8 (cString s) = s ↔ Plain s := by
  have small : nul.toNat < 0xD800 := by decide
  constructor
  · intro same
    refine ⟨⟨_, same⟩, ?_⟩
    rw [← same, unit_mem_fromUtf8 small]
    exact nul_notMem_cString s
  · rintro ⟨⟨text, rfl⟩, free⟩
    rw [unit_mem_fromUtf8 small] at free
    rw [cString, toUtf8_fromUtf8, List.takeWhile_eq_self_iff.mpr]
    intro c member
    exact bne_iff_ne.mpr fun same => free (same ▸ member)

/-! ## Fields -/

/-- What Qt makes of URLs, colors and ids, how a bool is read, and the colors that replace an invalid one. -/
structure Conversions (Url Color Uuid : Type) where
  deserializeBool : RjValue → Option Bool
  urlToString : Url → QString
  urlOf : QString → Url
  urlIsValid : Url → Bool
  /-- A URL that is constructed from nothing -/
  noUrl : Url
  /-- QColor::name with QColor::HexArgb -/
  nameArgb : Color → QString
  /-- QColor::name, without the alpha channel -/
  name : Color → QString
  colorOf : QString → Color
  isValid : Color → Bool
  uuidToString : Uuid → QString
  uuidOf : QString → Uuid

variable {Url Color Uuid : Type}

/-- What is documented of them. -/
structure Conversions.Lawful (qt : Conversions Url Color Uuid) : Prop where
  bool : ∀ value, qt.deserializeBool (.bool value) = some value
  url : ∀ url, Plain (qt.urlToString url) ∧ qt.urlOf (qt.urlToString url) = url
  nameArgb : ∀ color, Plain (qt.nameArgb color) ∧ qt.isValid (qt.colorOf (qt.nameArgb color)) = true
  name : ∀ color, Plain (qt.name color) ∧ qt.isValid (qt.colorOf (qt.name color)) = true
  uuid : ∀ uuid, Plain (qt.uuidToString uuid) ∧ qt.uuidOf (qt.uuidToString uuid) = uuid

inductive Datum (Url Color Uuid : Type) where
  | text (value : QString)
  | flag (value : Bool)
  | url (value : Url)
  | color (value : Color)
  | uuid (value : Uuid)
  deriving DecidableEq, Repr

/-- What a field holds, and what it is read as when it is missing or invalid. A URL that is checked is dropped if it is
invalid. -/
inductive FieldKind (Color : Type) where
  | text
  | flag (missing : Bool)
  | url (checked : Bool)
  | color (fallback : Color)
  | uuid
  deriving DecidableEq, Repr

structure Field (Color : Type) where
  key : StdString
  kind : FieldKind Color

variable (qt : Conversions Url Color Uuid)

def Datum.save : Datum Url Color Uuid → RjValue
  | .text value => serializeText value
  | .flag value => .bool value
  | .url value => serializeText (qt.urlToString value)
  | .color value => serializeText (qt.nameArgb value)
  | .uuid value => serializeText (qt.uuidToString value)

def readText (value : RjValue) (key : StdString) : QString := (getSafe deserializeText [] [] value key).1

def readFlag (missing : Bool) (value : RjValue) (key : StdString) : Bool :=
  (getSafe qt.deserializeBool false missing value key).1

def readUrl (checked : Bool) (value : RjValue) (key : StdString) : Url :=
  let url := qt.urlOf (readText value key)
  if checked && !qt.urlIsValid url then qt.noUrl else url

def readColor (fallback : Color) (value : RjValue) (key : StdString) : Color :=
  let color := qt.colorOf (readText value key)
  if qt.isValid color then color else fallback

def Field.load (value : RjValue) (field : Field Color) : Datum Url Color Uuid :=
  match field.kind with
  | .text => .text (readText value field.key)
  | .flag missing => .flag (readFlag qt missing value field.key)
  | .url checked => .url (readUrl qt checked value field.key)
  | .color fallback => .color (readColor qt fallback value field.key)
  | .uuid => .uuid (qt.uuidOf (readText value field.key))

/-- The datum is what the field can hold. -/
def Datum.Fits : Datum Url Color Uuid → FieldKind Color → Prop
  | .text _, .text | .flag _, .flag _ | .color _, .color _ | .uuid _, .uuid => True
  | .url value, .url checked => checked = true → qt.urlIsValid value = true ∨ value = qt.noUrl
  | _, _ => False

/-- The datum is the same after it was saved and loaded. -/
def Datum.Kept : Datum Url Color Uuid → Prop
  | .text value => Plain value
  | .color value => qt.colorOf (qt.nameArgb value) = value
  | .flag _ | .url _ | .uuid _ => True

/-! ## Records -/

/-- How a record is saved and loaded field by field; what is loaded from something else than an object is constructed
from nothing. -/
structure Codec (Record : Type) where
  fields : List (Field Color)
  data : Record → List (Datum Url Color Uuid)
  read : RjValue → Record
  error : Record
  nodup : (fields.map Field.key).Nodup
  fits : ∀ record, List.Forall₂ (fun datum field => datum.Fits qt field.kind) (data record) fields
  reads : ∀ value, data (read value) = fields.map (Field.load qt value)
  injective : Function.Injective data

variable {qt} {Record : Type} (codec : Codec qt Record)

def Codec.serialize (record : Record) : RjValue :=
  .object (List.zipWith (fun field datum => (field.key, datum.save qt)) codec.fields (codec.data record))

/-- The record, and whether an error is reported. -/
def Codec.deserialize (value : RjValue) : Record × Bool :=
  match value with
  | .object _ => (codec.read value, false)
  | _ => (codec.error, true)

theorem member?_object {members : List (StdString × RjValue)} (nodup : (members.map Prod.fst).Nodup) {key : StdString}
    {value : RjValue} (member : (key, value) ∈ members) : (RjValue.object members).member? key = some value := by
  show (members.find? fun member => member.1 == key).map Prod.snd = some value
  induction members with
  | nil => cases member
  | cons first rest ih =>
    rw [List.map_cons, List.nodup_cons] at nodup
    rw [List.find?_cons]
    rcases List.mem_cons.mp member with rfl | later
    · simp
    · have other : (first.1 == key) = false :=
        beq_eq_false_iff_ne.mpr fun same => nodup.1 (same ▸ List.mem_map_of_mem later)
      rw [other]
      exact ih nodup.2 later

theorem readText_saved {value : RjValue} {key : StdString} {s : QString}
    (found : value.member? key = some (serializeText s)) : readText value key = fromUtf8 (cString s) := by
  simp [readText, getSafe, found, serializeText, deserializeText]

theorem readText_plain {value : RjValue} {key : StdString} {s : QString} (plain : Plain s)
    (found : value.member? key = some (serializeText s)) : readText value key = s :=
  (readText_saved found).trans (fromUtf8_cString_iff.mpr plain)

/-- A field that is loaded from what was saved. -/
theorem load_eq_iff (lawful : qt.Lawful) {datum : Datum Url Color Uuid} {field : Field Color} {value : RjValue}
    (fits : datum.Fits qt field.kind) (found : value.member? field.key = some (datum.save qt)) :
    field.load qt value = datum ↔ datum.Kept qt := by
  obtain ⟨key, kind⟩ := field
  cases datum with
  | text s =>
    cases kind with
    | text => simp [Field.load, Datum.Kept, readText_saved found, fromUtf8_cString_iff]
    | _ => exact fits.elim
  | flag b =>
    cases kind with
    | flag missing =>
      rw [Datum.save] at found
      simp [Field.load, Datum.Kept, readFlag, getSafe, found, lawful.bool]
    | _ => exact fits.elim
  | url url =>
    cases kind with
    | url checked =>
      obtain ⟨plain, same⟩ := lawful.url url
      have read := readText_plain plain found
      cases checked with
      | true =>
        rcases fits rfl with valid | rfl
        · simp [Field.load, Datum.Kept, readUrl, read, same, valid]
        · simp [Field.load, Datum.Kept, readUrl, read, same]
      | false => simp [Field.load, Datum.Kept, readUrl, read, same]
    | _ => exact fits.elim
  | color color =>
    cases kind with
    | color fallback =>
      obtain ⟨plain, valid⟩ := lawful.nameArgb color
      simp [Field.load, Datum.Kept, readColor, readText_plain plain found, valid]
    | _ => exact fits.elim
  | uuid uuid =>
    cases kind with
    | uuid =>
      obtain ⟨plain, same⟩ := lawful.uuid uuid
      simp [Field.load, Datum.Kept, readText_plain plain found, same]
    | _ => exact fits.elim

theorem map_load_eq_iff (lawful : qt.Lawful) {data : List (Datum Url Color Uuid)} {fields : List (Field Color)} {value : RjValue}
    (fits : List.Forall₂ (fun datum field => datum.Fits qt field.kind) data fields)
    (found : ∀ member ∈ List.zipWith (fun field datum => (field.key, Datum.save qt datum)) fields data,
      value.member? member.1 = some member.2) :
    fields.map (Field.load qt value) = data ↔ ∀ datum ∈ data, datum.Kept qt := by
  induction fits with
  | nil => simp
  | cons fits rest ih =>
    rw [List.zipWith_cons_cons, List.forall_mem_cons] at found
    rw [List.map_cons, List.cons.injEq, List.forall_mem_cons, load_eq_iff lawful fits found.1, ih found.2]

theorem keys_saved {data : List (Datum Url Color Uuid)} {fields : List (Field Color)}
    (fits : List.Forall₂ (fun datum field => datum.Fits qt field.kind) data fields) :
    (List.zipWith (fun field datum => (field.key, Datum.save qt datum)) fields data).map Prod.fst = fields.map Field.key := by
  induction fits with
  | nil => rfl
  | cons _ _ ih => rw [List.zipWith_cons_cons, List.map_cons, List.map_cons, ih]

/-- A record comes back from its JSON if and only if everything in it does. -/
theorem Codec.restored_iff (lawful : qt.Lawful) (record : Record) :
    codec.deserialize (codec.serialize record) = (record, false) ↔ ∀ datum ∈ codec.data record, datum.Kept qt := by
  have nodup := codec.nodup
  rw [← keys_saved (codec.fits record)] at nodup
  rw [serialize, deserialize, Prod.mk.injEq, and_iff_left rfl, ← codec.injective.eq_iff, codec.reads]
  exact map_load_eq_iff lawful (codec.fits record) fun member inside => member?_object nodup inside

/-! ## The records of the settings -/

structure HighlightPhrase (Url Color : Type) where
  pattern : QString
  showInMentions : Bool
  hasAlert : Bool
  hasSound : Bool
  isRegex : Bool
  isCaseSensitive : Bool
  soundUrl : Url
  color : Color

structure HighlightBadge (Url Color : Type) where
  name : QString
  displayName : QString
  showInMentions : Bool
  hasAlert : Bool
  hasSound : Bool
  soundUrl : Url
  color : Color

structure HighlightBlacklistUser where
  pattern : QString
  isRegex : Bool

structure IgnorePhrase where
  pattern : QString
  isRegex : Bool
  isBlock : Bool
  replace : QString
  isCaseSensitive : Bool

/-- The path of an icon is only kept if it is valid. -/
structure ModerationAction (qt : Conversions Url Color Uuid) where
  action : QString
  iconPath : Url
  checked : qt.urlIsValid iconPath = true ∨ iconPath = qt.noUrl

structure FilterRecord (Uuid : Type) where
  name : QString
  filter : QString
  id : Uuid

structure ChannelLog where
  channelName : QString

structure Command where
  name : QString
  func : QString
  showInMsgContextMenu : Bool

structure UserData (Color : Type) where
  color : Option Color

def ModerationAction.of (qt : Conversions Url Color Uuid) (action : QString) (iconPath : Url) : ModerationAction qt :=
  if valid : qt.urlIsValid iconPath = true then ⟨action, iconPath, .inl valid⟩ else ⟨action, qt.noUrl, .inr rfl⟩

variable (qt)

def key (name : String) : StdString := name.toList

def highlightPhrases (fallback invalid : Color) : Codec qt (HighlightPhrase Url Color) where
  fields := [⟨key "pattern", .text⟩, ⟨key "showInMentions", .flag true⟩, ⟨key "alert", .flag true⟩,
    ⟨key "sound", .flag false⟩, ⟨key "regex", .flag false⟩, ⟨key "case", .flag false⟩, ⟨key "soundUrl", .url false⟩,
    ⟨key "color", .color fallback⟩]
  data := fun r => [.text r.pattern, .flag r.showInMentions, .flag r.hasAlert, .flag r.hasSound, .flag r.isRegex,
    .flag r.isCaseSensitive, .url r.soundUrl, .color r.color]
  read := fun value => ⟨readText value (key "pattern"), readFlag qt true value (key "showInMentions"),
    readFlag qt true value (key "alert"), readFlag qt false value (key "sound"),
    readFlag qt false value (key "regex"), readFlag qt false value (key "case"),
    readUrl qt false value (key "soundUrl"), readColor qt fallback value (key "color")⟩
  error := ⟨[], false, false, false, false, false, qt.urlOf [], invalid⟩
  nodup := by simp only [List.map_cons, List.map_nil]; decide
  fits := by simp [Datum.Fits]
  reads := fun _ => rfl
  injective := by
    rintro ⟨⟩ ⟨⟩ same
    simpa using same

def highlightBadges (fallback invalid : Color) : Codec qt (HighlightBadge Url Color) where
  fields := [⟨key "name", .text⟩, ⟨key "displayName", .text⟩, ⟨key "showInMentions", .flag false⟩,
    ⟨key "alert", .flag true⟩, ⟨key "sound", .flag false⟩, ⟨key "soundUrl", .url false⟩,
    ⟨key "color", .color fallback⟩]
  data := fun r => [.text r.name, .text r.displayName, .flag r.showInMentions, .flag r.hasAlert, .flag r.hasSound,
    .url r.soundUrl, .color r.color]
  read := fun value => ⟨readText value (key "name"), readText value (key "displayName"),
    readFlag qt false value (key "showInMentions"), readFlag qt true value (key "alert"),
    readFlag qt false value (key "sound"), readUrl qt false value (key "soundUrl"),
    readColor qt fallback value (key "color")⟩
  error := ⟨[], [], false, false, false, qt.urlOf [], invalid⟩
  nodup := by simp only [List.map_cons, List.map_nil]; decide
  fits := by simp [Datum.Fits]
  reads := fun _ => rfl
  injective := by
    rintro ⟨⟩ ⟨⟩ same
    simpa using same

def highlightBlacklistUsers : Codec qt HighlightBlacklistUser where
  fields := [⟨key "pattern", .text⟩, ⟨key "regex", .flag false⟩]
  data := fun r => [.text r.pattern, .flag r.isRegex]
  read := fun value => ⟨readText value (key "pattern"), readFlag qt false value (key "regex")⟩
  error := ⟨[], false⟩
  nodup := by simp only [List.map_cons, List.map_nil]; decide
  fits := by simp [Datum.Fits]
  reads := fun _ => rfl
  injective := by
    rintro ⟨⟩ ⟨⟩ same
    simpa using same

def ignorePhrases (defaultReplace : QString) : Codec qt IgnorePhrase where
  fields := [⟨key "pattern", .text⟩, ⟨key "regex", .flag false⟩, ⟨key "isBlock", .flag false⟩,
    ⟨key "replaceWith", .text⟩, ⟨key "caseSensitive", .flag true⟩]
  data := fun r => [.text r.pattern, .flag r.isRegex, .flag r.isBlock, .text r.replace, .flag r.isCaseSensitive]
  read := fun value => ⟨readText value (key "pattern"), readFlag qt false value (key "regex"),
    readFlag qt false value (key "isBlock"), readText value (key "replaceWith"),
    readFlag qt true value (key "caseSensitive")⟩
  error := ⟨[], false, false, defaultReplace, true⟩
  nodup := by simp only [List.map_cons, List.map_nil]; decide
  fits := by simp [Datum.Fits]
  reads := fun _ => rfl
  injective := by
    rintro ⟨⟩ ⟨⟩ same
    simpa using same

/-- The variables for the two flags are not initialized. -/
def nicknames (isRegex isCaseSensitive : Bool) : Codec qt Nickname where
  fields := [⟨key "name", .text⟩, ⟨key "replace", .text⟩, ⟨key "isRegex", .flag isRegex⟩,
    ⟨key "isCaseSensitive", .flag isCaseSensitive⟩]
  data := fun r => [.text r.name, .text r.replace, .flag r.isRegex, .flag r.isCaseSensitive]
  read := fun value => ⟨readText value (key "name"), readText value (key "replace"),
    readFlag qt isRegex value (key "isRegex"), readFlag qt isCaseSensitive value (key "isCaseSensitive")⟩
  error := ⟨[], [], false, false⟩
  nodup := by simp only [List.map_cons, List.map_nil]; decide
  fits := by simp [Datum.Fits]
  reads := fun _ => rfl
  injective := by
    rintro ⟨⟩ ⟨⟩ same
    simpa using same

def filterRecords (generated : Uuid) : Codec qt (FilterRecord Uuid) where
  fields := [⟨key "name", .text⟩, ⟨key "filter", .text⟩, ⟨key "id", .uuid⟩]
  data := fun r => [.text r.name, .text r.filter, .uuid r.id]
  read := fun value => ⟨readText value (key "name"), readText value (key "filter"),
    qt.uuidOf (readText value (key "id"))⟩
  error := ⟨[], [], generated⟩
  nodup := by simp only [List.map_cons, List.map_nil]; decide
  fits := by simp [Datum.Fits]
  reads := fun _ => rfl
  injective := by
    rintro ⟨⟩ ⟨⟩ same
    simpa using same

def moderationActions : Codec qt (ModerationAction qt) where
  fields := [⟨key "pattern", .text⟩, ⟨key "icon", .url true⟩]
  data := fun r => [.text r.action, .url r.iconPath]
  read := fun value => ModerationAction.of qt (readText value (key "pattern")) (qt.urlOf (readText value (key "icon")))
  error := ModerationAction.of qt [] qt.noUrl
  nodup := by simp only [List.map_cons, List.map_nil]; decide
  fits := by
    rintro ⟨action, iconPath, checked⟩
    simp [Datum.Fits, checked]
  reads := by
    intro value
    unfold ModerationAction.of
    split
    · next valid => simp [Field.load, readUrl, valid]
    · next invalid => simp [Field.load, readUrl, invalid]
  injective := by
    rintro ⟨⟩ ⟨⟩ same
    simpa using same

/-! ### Records that must be complete, and one that need not -/

def ChannelLog.serialize (record : ChannelLog) : RjValue := .object [(key "channelName", serializeText record.channelName)]

def ChannelLog.deserialize (value : RjValue) : ChannelLog × Bool :=
  match value with
  | .object _ =>
    match getSafe deserializeText [] [] value (key "channelName") with
    | (channelName, true) => (⟨channelName⟩, false)
    | (_, false) => (⟨[]⟩, true)
  | _ => (⟨[]⟩, true)

def Command.serialize (record : Command) : RjValue :=
  .object [(key "name", serializeText record.name), (key "func", serializeText record.func),
    (key "showInMsgContextMenu", .bool record.showInMsgContextMenu)]

def Command.deserialize (value : RjValue) : Command × Bool :=
  match value with
  | .object _ =>
    match getSafe deserializeText [] [] value (key "name") with
    | (name, false) => (⟨name, [], false⟩, true)
    | (name, true) =>
      match getSafe deserializeText [] [] value (key "func") with
      | (func, false) => (⟨name, func, false⟩, true)
      | (func, true) =>
        match getSafe qt.deserializeBool false false value (key "showInMsgContextMenu") with
        | (_, false) => (⟨name, func, false⟩, true)
        | (showInMsgContextMenu, true) => (⟨name, func, showInMsgContextMenu⟩, false)
  | _ => (⟨[], [], false⟩, true)

def UserData.serialize (record : UserData Color) : RjValue :=
  .object (match record.color with
    | some color => [(key "color", .string (toUtf8 (qt.name color)))]
    | none => [])

def UserData.deserialize (value : RjValue) : UserData Color × Bool :=
  match value with
  | .object _ =>
    match getSafe deserializeText [] [] value (key "color") with
    | (colorString, true) =>
      let color := qt.colorOf colorString
      (⟨if qt.isValid color then some color else none⟩, false)
    | (_, false) => (⟨none⟩, false)
  | _ => (⟨none⟩, true)

variable {qt}

theorem channelLog_restored_iff (record : ChannelLog) :
    ChannelLog.deserialize record.serialize = (record, false) ↔ Plain record.channelName := by
  obtain ⟨channelName⟩ := record
  rw [← fromUtf8_cString_iff]
  simp [ChannelLog.serialize, ChannelLog.deserialize, getSafe, RjValue.member?, serializeText, deserializeText]

theorem command_restored_iff (lawful : qt.Lawful) (record : Command) :
    Command.deserialize qt record.serialize = (record, false) ↔ Plain record.name ∧ Plain record.func := by
  obtain ⟨name, func, showInMsgContextMenu⟩ := record
  have others : key "name" ≠ key "func" ∧ key "name" ≠ key "showInMsgContextMenu" ∧
      key "func" ≠ key "showInMsgContextMenu" := by decide
  rw [← fromUtf8_cString_iff, ← fromUtf8_cString_iff]
  simp [Command.serialize, Command.deserialize, getSafe, RjValue.member?, serializeText, deserializeText, lawful.bool,
    others]

theorem userData_restored_iff (lawful : qt.Lawful) (record : UserData Color) :
    UserData.deserialize qt (record.serialize qt) = (record, false) ↔
      ∀ color, record.color = some color → qt.colorOf (qt.name color) = color := by
  obtain ⟨color⟩ := record
  cases color with
  | none => simp [UserData.serialize, UserData.deserialize, getSafe, RjValue.member?]
  | some color =>
    obtain ⟨⟨plain, -⟩, valid⟩ := lawful.name color
    simp [UserData.serialize, UserData.deserialize, getSafe, RjValue.member?, deserializeText, fromUtf8_toUtf8 plain, valid]

/-! ## All of them -/

inductive SettingsRecord (qt : Conversions Url Color Uuid) where
  | highlightPhrase (record : HighlightPhrase Url Color)
  | highlightBadge (record : HighlightBadge Url Color)
  | highlightBlacklistUser (record : HighlightBlacklistUser)
  | ignorePhrase (record : IgnorePhrase)
  | nickname (record : Nickname)
  | filterRecord (record : FilterRecord Uuid)
  | moderationAction (record : ModerationAction qt)
  | channelLog (record : ChannelLog)
  | command (record : Command)
  | userData (record : UserData Color)

/-- What a record is made of that is not in its JSON: colors that replace invalid ones, the color that is none, what
replaces an ignored phrase, the flags of a nickname that are not initialized, and a new id. -/
structure Defaults (Color Uuid : Type) where
  phraseColor : Color
  badgeColor : Color
  noColor : Color
  replace : QString
  isRegex : Bool
  isCaseSensitive : Bool
  generated : Uuid

namespace SettingsRecord

variable (defaults : Defaults Color Uuid)

def serialize : SettingsRecord qt → RjValue
  | .highlightPhrase record => (highlightPhrases qt defaults.phraseColor defaults.noColor).serialize record
  | .highlightBadge record => (highlightBadges qt defaults.badgeColor defaults.noColor).serialize record
  | .highlightBlacklistUser record => (highlightBlacklistUsers qt).serialize record
  | .ignorePhrase record => (ignorePhrases qt defaults.replace).serialize record
  | .nickname record => (nicknames qt defaults.isRegex defaults.isCaseSensitive).serialize record
  | .filterRecord record => (filterRecords qt defaults.generated).serialize record
  | .moderationAction record => (moderationActions qt).serialize record
  | .channelLog record => record.serialize
  | .command record => record.serialize
  | .userData record => record.serialize qt

/-- A value is loaded as the kind of record that was there. -/
def deserialize (setting : SettingsRecord qt) (value : RjValue) : SettingsRecord qt × Bool :=
  match setting with
  | .highlightPhrase _ =>
      ((highlightPhrases qt defaults.phraseColor defaults.noColor).deserialize value).map .highlightPhrase id
  | .highlightBadge _ => ((highlightBadges qt defaults.badgeColor defaults.noColor).deserialize value).map .highlightBadge id
  | .highlightBlacklistUser _ => ((highlightBlacklistUsers qt).deserialize value).map .highlightBlacklistUser id
  | .ignorePhrase _ => ((ignorePhrases qt defaults.replace).deserialize value).map .ignorePhrase id
  | .nickname _ => ((nicknames qt defaults.isRegex defaults.isCaseSensitive).deserialize value).map .nickname id
  | .filterRecord _ => ((filterRecords qt defaults.generated).deserialize value).map .filterRecord id
  | .moderationAction _ => ((moderationActions qt).deserialize value).map .moderationAction id
  | .channelLog _ => (ChannelLog.deserialize value).map .channelLog id
  | .command _ => (Command.deserialize qt value).map .command id
  | .userData _ => (UserData.deserialize qt value).map .userData id

/-- The texts of a record. -/
def texts : SettingsRecord qt → List QString
  | .highlightPhrase record => [record.pattern]
  | .highlightBadge record => [record.name, record.displayName]
  | .highlightBlacklistUser record => [record.pattern]
  | .ignorePhrase record => [record.pattern, record.replace]
  | .nickname record => [record.name, record.replace]
  | .filterRecord record => [record.name, record.filter]
  | .moderationAction record => [record.action]
  | .channelLog record => [record.channelName]
  | .command record => [record.name, record.func]
  | .userData _ => []

/-- The color of a record is the one that its name stands for. A user is saved without the alpha channel. -/
def ColorKept : SettingsRecord qt → Prop
  | .highlightPhrase record => qt.colorOf (qt.nameArgb record.color) = record.color
  | .highlightBadge record => qt.colorOf (qt.nameArgb record.color) = record.color
  | .userData record => ∀ color, record.color = some color → qt.colorOf (qt.name color) = color
  | _ => True

theorem wrapped_iff {Record : Type} {wrap : Record → SettingsRecord qt} (injective : Function.Injective wrap)
    (loaded : Record × Bool) (record : Record) :
    loaded.map wrap id = (wrap record, false) ↔ loaded = (record, false) := by
  rw [Prod.ext_iff, Prod.ext_iff]
  exact and_congr_left fun _ => injective.eq_iff

/-- The empty URL, black and the null id, as Qt converts them. -/
def black : Conversions Unit Unit Unit where
  deserializeBool := fun
    | .bool value => some value
    | _ => none
  urlToString := fun _ => []
  urlOf := fun _ => ()
  urlIsValid := fun _ => false
  noUrl := ()
  nameArgb := fun _ => qs "#ff000000"
  name := fun _ => qs "#000000"
  colorOf := fun _ => ()
  isValid := fun _ => true
  uuidToString := fun _ => qs "00000000-0000-0000-0000-000000000000"
  uuidOf := fun _ => ()

theorem plain_of_small {s : QString} (small : ∀ c ∈ s, c.toNat < 0xD800) (free : u nul ∉ s) : Plain s :=
  ⟨wellFormed_of_small small, free⟩

theorem black_lawful : black.Lawful where
  bool := fun _ => rfl
  url := by
    rintro ⟨⟩
    exact ⟨plain_of_small (by decide) (by decide), rfl⟩
  nameArgb := by
    rintro ⟨⟩
    exact ⟨plain_of_small (by decide) (by decide), rfl⟩
  name := by
    rintro ⟨⟩
    exact ⟨plain_of_small (by decide) (by decide), rfl⟩
  uuid := by
    rintro ⟨⟩
    exact ⟨plain_of_small (by decide) (by decide), rfl⟩

end SettingsRecord

end Forserino.Common
