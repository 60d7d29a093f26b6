import CodeQuality.Proofs.FileTree
import CodeQuality.Proofs.Text.Octets
import CodeQuality.Proofs.Toml.Document
import CodeQuality.Settings

/-!
# Settings kept and found again

Settings that have been saved are loaded as they were, whatever their texts are and whatever the
file has held before.

* `Settings.pairs` — the lines of the table that keeps the settings.
* `Settings.ofToml?_toToml` — the settings that a document holds are those it has been written for.
* `Settings.load_of_save` — the settings in a file.
-/

namespace CodeQuality
namespace Toml
namespace Scan
namespace Pair

/-- A line that holds a text. -/
def ofText (key s : String) (hkey : isBare key = true) : Pair where
  key := key
  written := Quoted.encode s.toList
  value := .text s
  bare := hkey
  tight := by
    obtain ⟨c, ds, heq, rfl | rfl⟩ := exists_quote_encode s.toList <;> simp [heq, isSpace]
  reads rest := by rw [value_text, String.ofList_toList]

/-- A line that holds a truth value. -/
def ofFlag (key : String) (b : Bool) (hkey : isBare key = true) : Pair where
  key := key
  written := (toString b).toList
  value := .flag b
  bare := hkey
  tight := by cases b <;> (rintro c ⟨⟩; rfl)
  reads := value_flag maxDepth b

/-- A line that holds a number that is not negative. -/
def ofCount (key : String) (n : Nat) (hkey : isBare key = true) (hn : n < 0x8000000000000000) :
    Pair where
  key := key
  written := Text.numeral n
  value := .integer n
  bare := hkey
  tight := by
    intro c hc
    have hdigit := Text.isDigit_of_mem_numeral (List.mem_of_mem_head? hc)
    have hblank : c ≠ ' ' := by rintro rfl; nomatch hdigit
    have htab : c ≠ '\t' := by rintro rfl; nomatch hdigit
    simp [isSpace, hblank, htab]
  reads := value_integer maxDepth hn

end Pair
end Scan
end Toml

namespace Settings

open Toml.Scan (Pair isBare)

variable {s : Settings} {document path : String} {files files' : FileTree} {room : Option Nat}

/-! ### The document -/

/-- Does the document have room for the timeout? -/
abbrev Storable (s : Settings) : Prop := ∀ n, s.timeoutSecs = some n → n.toNat < 0x8000000000000000

/-- The lines of the table that keeps the settings. -/
def pairs (s : Settings) (h : s.Storable) : List Pair :=
  (s.url.map fun u => Pair.ofText "url" u (by decide)).toList ++
    [Pair.ofFlag "mock_mode" s.mockMode (by decide)] ++
    (s.timeoutSecs.pmap
      (fun n hn => Pair.ofCount "timeout_secs" n.toNat (by decide) hn) h).toList ++
    (s.defaultProject.map fun p => Pair.ofText "default_project" p (by decide)).toList

theorem nodup_pairs (h : s.Storable) : ((s.pairs h).map Pair.key).Nodup := by
  obtain ⟨url, mockMode, timeoutSecs, defaultProject⟩ := s
  cases url <;> cases timeoutSecs <;> cases defaultProject <;>
    simp [pairs, Pair.ofText, Pair.ofFlag, Pair.ofCount]

theorem toList_tomlLine (p : Pair) {value : String} (h : value.toList = p.written) :
    (tomlLine p.key value).toList = p.chars := by
  simp [tomlLine, Pair.chars, h]

theorem toList_tomlText (s : String) : (tomlText s).toList = Toml.Quoted.encode s.toList :=
  String.toList_ofList

theorem toList_toString (n : Nat) : (toString n).toList = Text.numeral n :=
  String.toList_ofList

/-- The settings are written as the lines of their table, if the timeout fits into it. -/
theorem toLines_ok (h : s.toLines = .ok document) :
    ∃ hs : s.Storable, document.toList = (s.pairs hs).flatMap Pair.chars := by
  unfold toLines at h
  split at h
  · nomatch h
  · next hguard =>
    have hs : s.Storable := by
      intro n hn
      have hfit : ¬maxTimeout < n.toNat := fun hlt => hguard (by rw [hn]; exact decide_eq_true hlt)
      unfold maxTimeout at hfit
      omega
    refine ⟨hs, ?_⟩
    cases h
    obtain ⟨url, mockMode, timeoutSecs, defaultProject⟩ := s
    have hflag := toList_tomlLine (Pair.ofFlag "mock_mode" mockMode (by decide)) rfl
    have htext (key s : String) (hkey : isBare key = true) :=
      toList_tomlLine (Pair.ofText key s hkey) (toList_tomlText s)
    have hcount (n : Nat) (hn : n < 0x8000000000000000) :=
      toList_tomlLine (Pair.ofCount "timeout_secs" n (by decide) hn) (toList_toString n)
    cases url <;> cases timeoutSecs <;> cases defaultProject <;>
      simp [pairs, ← hflag, ← htext, ← hcount] <;> rfl

/-- The entries of the table stand for the settings. -/
theorem ofValue_pairs (h : s.Storable) :
    ofValue (.table ((s.pairs h).map Pair.entry)) = some s := by
  obtain ⟨url, mockMode, timeoutSecs, defaultProject⟩ := s
  cases url <;> cases timeoutSecs <;> cases defaultProject <;>
    simp [pairs, Pair.ofText, Pair.ofFlag, Pair.ofCount, Pair.entry, ofValue, ofValues, optional,
      Toml.Value.get?, textOf?, flagOf?, countOf?]

/-- The document that holds the settings is read as these settings. -/
theorem ofToml?_toToml (h : s.toToml = .ok document) : ofToml? document = some s := by
  unfold toToml at h
  cases hlines : s.toLines with
  | error e => rw [hlines] at h; nomatch h
  | ok lines =>
    rw [hlines] at h
    obtain ⟨hs, hchars⟩ := toLines_ok hlines
    obtain rfl : "[server]\n" ++ lines = document := Except.ok.inj h
    have hdocument : "[server]\n" ++ lines = String.ofList ('[' :: ("server".toList ++
        (']' :: '\n' :: (s.pairs hs).flatMap Pair.chars))) := by
      apply String.toList_injective
      simp [hchars]
    unfold ofToml?
    rw [hdocument, Toml.Value.read?_table (by decide) (nodup_pairs hs)]
    exact ofValue_pairs hs

/-! ### The file -/

/-- The ways in which saving can end: there is no path, a file is in the way of a directory, the
settings have no document, no file can be written where the path leads to, there is no room for all
of the document, or it is written. -/
inductive Saves (s : Settings) (files : FileTree) (path : String) (room : Option Nat) :
    Except SettingsError Unit → FileTree → Prop where
  | nowhere {e : SettingsError} (hpath : FilePath.ofString? path = none) :
    Saves s files path room (.error e) files
  | blocked {target : FilePath} {made : FileTree} {cause : FileError}
    (hpath : FilePath.ofString? path = some target)
    (hmake : files.makeDirectories target.parent = (.error cause, made)) :
    Saves s files path room (.error (.unwritable cause)) made
  | unstorable {target : FilePath} {made : FileTree} {e : SettingsError}
    (hpath : FilePath.ofString? path = some target)
    (hmake : files.makeDirectories target.parent = (.ok (), made)) (hdocument : s.toToml = .error e) :
    Saves s files path room (.error e) made
  | unwritable {target : FilePath} {made : FileTree} {document : String} {cause : FileError}
    (hpath : FilePath.ofString? path = some target)
    (hmake : files.makeDirectories target.parent = (.ok (), made))
    (hdocument : s.toToml = .ok document) (htarget : made.target target = .error cause) :
    Saves s files path room (.error (.unwritable cause)) made
  | cut {target : FilePath} {made : FileTree} {document : String} {place : FilePlace}
    (hpath : FilePath.ofString? path = some target)
    (hmake : files.makeDirectories target.parent = (.ok (), made))
    (hdocument : s.toToml = .ok document) (htarget : made.target target = .ok place)
    (hcut : ¬FileTree.Fits room (Text.octets document.toList)) :
    Saves s files path room (.error (.unwritable .noSpace))
      (made.put place (.file (FileTree.taken room (Text.octets document.toList))))
  | written {target : FilePath} {made : FileTree} {document : String} {place : FilePlace}
    (hpath : FilePath.ofString? path = some target)
    (hmake : files.makeDirectories target.parent = (.ok (), made))
    (hdocument : s.toToml = .ok document) (htarget : made.target target = .ok place)
    (hfits : FileTree.Fits room (Text.octets document.toList)) :
    Saves s files path room (.ok ()) (made.put place (.file (Text.octets document.toList)))

theorem saves_save (s : Settings) (files : FileTree) (path : String) (room : Option Nat) :
    s.Saves files path room (s.save files path room).1 (s.save files path room).2 := by
  unfold save
  split
  · next hpath => cases s.toToml <;> exact .nowhere hpath
  · next target hpath =>
    split
    · next hmake => exact .blocked hpath hmake
    · next made hmake =>
      split
      · next hdocument => exact .unstorable hpath hmake hdocument
      · next document hdocument =>
        unfold FileTree.write
        cases htarget : made.target target with
        | error cause => exact .unwritable hpath hmake hdocument htarget
        | ok place =>
          dsimp only
          split
          · next hfits =>
            rw [FileTree.taken_eq_self hfits]
            exact .written hpath hmake hdocument htarget hfits
          · next hcut => exact .cut hpath hmake hdocument htarget hcut

/-- Saving succeeds exactly if the directories on the way can be made, there is a document, and it
is written to the file that the path leads to. -/
theorem save_eq_ok_iff : s.save files path room = (.ok (), files') ↔
    ∃ target document made place, FilePath.ofString? path = some target ∧
      files.makeDirectories target.parent = (.ok (), made) ∧ s.toToml = .ok document ∧
      made.target target = .ok place ∧ FileTree.Fits room (Text.octets document.toList) ∧
      files' = made.put place (.file (Text.octets document.toList)) := by
  constructor
  · intro h
    have hsaves := saves_save s files path room
    rw [h] at hsaves
    cases hsaves with
    | written hpath hmake hdocument htarget hfits =>
      exact ⟨_, _, _, _, hpath, hmake, hdocument, htarget, hfits, rfl⟩
  · rintro ⟨target, document, made, place, hpath, hmake, hdocument, htarget, hfits, rfl⟩
    have hwrite : made.write target (Text.octets document.toList) room = (.ok (), _) :=
      FileTree.write_ok_iff.mpr ⟨place, htarget, hfits, rfl⟩
    unfold save
    simp only [hpath, hmake, hdocument, hwrite]
    rfl

/-- Settings are loaded wherever the path leads to their document. -/
theorem load_of_find {target : FilePath} (hpath : FilePath.ofString? path = some target)
    (hdocument : s.toToml = .ok document)
    (hfind : files.find target = .ok (.file (Text.octets document.toList))) :
    load files path = .ok s := by
  have hhas := FileTree.has_of_find hfind
  have hread := FileTree.read_of_find hfind
  have hoctets := Text.ofOctets?_octets document.toList
  unfold load
  simp only [hpath, hhas, hread, hoctets, if_true, String.ofList_toList, ofToml?_toToml hdocument]

/-- What has been saved stands where the path leads to. -/
theorem find_of_save (h : s.save files path room = (.ok (), files')) :
    ∃ target document, FilePath.ofString? path = some target ∧ s.toToml = .ok document ∧
      files'.find target = .ok (.file (Text.octets document.toList)) := by
  obtain ⟨target, document, made, place, hpath, -, hdocument, htarget, -, rfl⟩ := save_eq_ok_iff.mp h
  exact ⟨target, document, hpath, hdocument, FileTree.find_put htarget _⟩

/-- Settings that have been saved are loaded as they were. -/
theorem load_of_save (h : s.save files path room = (.ok (), files')) : load files' path = .ok s := by
  obtain ⟨target, document, hpath, hdocument, hfind⟩ := find_of_save h
  exact load_of_find hpath hdocument hfind

/-- Not even a text that needs every kind of escape is lost, nor does it matter that the file was no
text before. -/
theorem load_of_save_quoted :
    let s : Settings :=
      { url := some "it's \"\"\"\\ \r\n\x01\x7f", mockMode := true, timeoutSecs := some 0,
        defaultProject := some "" }
    let files : FileTree := ⟨[(["sq"], .directory), (["sq", "config.toml"], .file [0xFF])]⟩
    (s.save files "sq/config.toml").1 = .ok () ∧
      load (s.save files "sq/config.toml").2 "sq/config.toml" = .ok s := by
  intro s files
  have hsave : s.save files "sq/config.toml" = (.ok (), (s.save files "sq/config.toml").2) := rfl
  exact ⟨rfl, load_of_save hsave⟩

end Settings
end CodeQuality
