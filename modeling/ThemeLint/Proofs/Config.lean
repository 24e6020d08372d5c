import ThemeLint.Accessor
import ThemeLint.Config
import Mathlib.Data.List.Induction
import Mathlib.Data.List.Rotate

namespace ThemeLint

open Bytes

-- Looking for a name among all names gives what has it, if no two have the same.
theorem find?_name_eq_some {α : Type} {all : List α} {nameOf : α → Bytes}
    (hfind : ∀ a, all.find? (nameOf · == nameOf a) = some a) {name : Bytes} {a : α} :
    all.find? (nameOf · == name) = some a ↔ name = nameOf a := by
  constructor
  · intro h
    have hname := List.find?_some h
    exact (eq_of_beq hname).symm
  · rintro rfl
    exact hfind a

theorem Format.ofName?_eq_some {name : Bytes} {format : Format} :
    ofName? name = some format ↔ name = format.name :=
  find?_name_eq_some fun format => by cases format <;> rfl

theorem ColorMode.ofName?_eq_some {name : Bytes} {mode : ColorMode} :
    ofName? name = some mode ↔ name = mode.name :=
  find?_name_eq_some fun mode => by cases mode <;> rfl

theorem Accessors.ofNames_names (accessors : Accessors) : ofNames accessors.names = .ok accessors := by
  have hall : accessors.names.find? (fun name => !Bytes.isIdentifier name) = none := by
    simpa using accessors.isIdentifier
  unfold ofNames
  rw [dif_neg accessors.names_ne_nil]
  split
  · rename_i name hname
    simp [hall] at hname
  · rfl

theorem Accessors.names_of_ofNames {names : List Bytes} {accessors : Accessors}
    (h : ofNames names = .ok accessors) : accessors.names = names := by
  unfold ofNames at h
  split at h
  · simp at h
  · split at h
    · simp at h
    · rw [← Except.ok.inj h]

namespace Config

variable {c : Config}

theorem validate_eq_ok_iff :
    c.validate = .ok () ↔ (∃ format, c.format = Format.name format) ∧
      (∃ mode, c.color = ColorMode.name mode) ∧
      ∀ name ∈ c.accessors, Bytes.isIdentifier name = true := by
  have hformat : (∃ format, c.format = Format.name format) ↔
      (Format.ofName? c.format).isSome = true := by
    simp only [← Format.ofName?_eq_some, Option.isSome_iff_exists]
  have hcolor : (∃ mode, c.color = ColorMode.name mode) ↔
      (ColorMode.ofName? c.color).isSome = true := by
    simp only [← ColorMode.ofName?_eq_some, Option.isSome_iff_exists]
  have haccessors : (∀ name ∈ c.accessors, Bytes.isIdentifier name = true) ↔
      c.accessors.find? (fun name => !Bytes.isIdentifier name) = none := by simp
  rw [hformat, hcolor, haccessors, validate]
  cases Format.ofName? c.format with
  | none => simp
  | some format =>
      cases ColorMode.ofName? c.color with
      | none => simp
      | some mode => cases c.accessors.find? (fun name => !Bytes.isIdentifier name) <;> simp

end Config

namespace Settings

variable {s t : Settings} {name : Bytes} {slot : Toml.Slot} {entries : List (Bytes × Toml.Slot)}
  {isName : Bytes → Bool} {traversal : Toml.Traversal}

-- What stands under a name; of several spellings the last one counts.
def lastOf? (isName : Bytes → Bool) (entries : List (Bytes × Toml.Slot)) : Option Toml.Slot :=
  (entries.filter fun entry => isName entry.1).getLast?.map Prod.snd

def ofEntries (entries : List (Bytes × Toml.Slot)) : Settings where
  accessors? := (lastOf? isAccessors entries).bind texts?
  format? := (lastOf? isFormat entries).bind text?
  color? := (lastOf? isColor entries).bind text?

end Settings

end ThemeLint
