import K8Labs.Python.FileSystem

/-!
# Text files

`path.read_text(encoding="utf-8")`: the bytes are decoded, and every line end becomes a newline.
`textAt` is the text as it stands in the file, before that.
-/

namespace Py

theorem return_notMem_universalNewlines (text : List Char) : '\r' ∉ universalNewlines text := by
  rw [universalNewlines, List.mem_map]
  rintro ⟨c, -, hc⟩
  split_ifs at hc with hreturn
  · cases hc
  · exact hreturn hc

theorem fromUTF8?_eq_some {bytes : ByteArray} {s : String} :
    String.fromUTF8? bytes = some s ↔ bytes = s.toUTF8 := by
  unfold String.fromUTF8?
  constructor
  · intro h
    split_ifs at h with hvalid
    cases h
    rfl
  · rintro rfl
    exact dif_pos s.isValidUTF8

namespace FileSystem

/-- The text of some bytes. -/
def decodeText (bytes : ByteArray) : Except Exc String :=
  match String.fromUTF8? bytes with
  | some text => .ok (String.ofList (universalNewlines text.toList))
  | none => .error ⟨.unicodeDecodeError, "'utf-8' codec can't decode the bytes"⟩

/-- `path.read_text(encoding="utf-8")`. -/
def readText (fs : FileSystem) (path : Path) : Except Exc String := (fs.read path).bind decodeText

/-- The characters of a file. -/
def textAt (fs : FileSystem) (path : Path) : Option (List Char) :=
  ((fs.fileAt path).bind String.fromUTF8?).map String.toList

variable {fs fs' : FileSystem} {path : Path} {text text' : List Char}

theorem textAt_congr (h : fs'.node path = fs.node path) : textAt fs' path = textAt fs path := by
  rw [textAt, fileAt_congr h, textAt]

theorem textAt_eq_some : textAt fs path = some text ↔
    fs.fileAt path = some (String.ofList text).toUTF8 := by
  unfold textAt
  rw [Option.map_eq_some_iff]
  constructor
  · rintro ⟨s, hs, rfl⟩
    obtain ⟨bytes, hbytes, hs⟩ := Option.bind_eq_some_iff.1 hs
    rw [hbytes, fromUTF8?_eq_some.1 hs, String.ofList_toList]
  · intro h
    exact ⟨String.ofList text, Option.bind_eq_some_iff.2 ⟨_, h, fromUTF8?_eq_some.2 rfl⟩,
      String.toList_ofList⟩

theorem readText_of_textAt (h : textAt fs path = some text) :
    readText fs path = .ok (String.ofList (universalNewlines text)) := by
  have hread := read_eq_ok.2 (textAt_eq_some.1 h)
  have hdecode : decodeText (String.ofList text).toUTF8 =
      .ok (String.ofList (universalNewlines text)) := by
    rw [decodeText, fromUTF8?_eq_some.2 rfl]
    simp only [String.toList_ofList]
  rw [readText, hread]
  exact hdecode

theorem readText_of_textAt_none (h : textAt fs path = none) : ∃ e, readText fs path = .error e := by
  unfold readText
  cases hread : fs.read path with
  | error e => exact ⟨e, rfl⟩
  | ok bytes =>
    rw [textAt, read_eq_ok.1 hread, Option.map_eq_none_iff] at h
    have hbytes : String.fromUTF8? bytes = none := h
    have hdecode : ∃ e, decodeText bytes = .error e := by
      rw [decodeText, hbytes]
      exact ⟨_, rfl⟩
    exact hdecode

/-- A file has the text that it had. -/
theorem node_eq_iff (h : textAt fs path = some text) (h' : textAt fs' path = some text') :
    fs'.node path = fs.node path ↔ text' = text := by
  constructor
  · intro hnode
    exact Option.some.inj (h'.symm.trans ((textAt_congr hnode).trans h))
  · rintro rfl
    rw [fileAt_eq_some.1 (textAt_eq_some.1 h), fileAt_eq_some.1 (textAt_eq_some.1 h')]

end FileSystem

end Py
