/-
Letters whose upper-case form is not a single character, after Unicode 14.

In capitals such a letter is written with several characters, as the sharp s is with two.

* `capitalInitials`: the letters, with the first of those characters;
* `capitalInitial?`: that character of a letter that is one of them.
-/
import Applicability.Text.Lowercase

namespace Applicability.Text

/-- From each letter that is written with several characters in capitals to the first of them. -/
def capitalInitials : List Shift := [
  ⟨0xDF, 0xDF, 1, -140⟩, ⟨0x149, 0x149, 1, 371⟩, ⟨0x1F0, 0x1F0, 1, -422⟩, ⟨0x390, 0x390, 1, 9⟩,
  ⟨0x3B0, 0x3B0, 1, -11⟩, ⟨0x587, 0x587, 1, -82⟩, ⟨0x1E96, 0x1E96, 1, -7758⟩,
  ⟨0x1E97, 0x1E97, 1, -7747⟩, ⟨0x1E98, 0x1E98, 1, -7745⟩, ⟨0x1E99, 0x1E99, 1, -7744⟩,
  ⟨0x1E9A, 0x1E9A, 1, -7769⟩, ⟨0x1F50, 0x1F50, 1, -7083⟩, ⟨0x1F52, 0x1F52, 1, -7085⟩,
  ⟨0x1F54, 0x1F54, 1, -7087⟩, ⟨0x1F56, 0x1F56, 1, -7089⟩, ⟨0x1F80, 0x1F87, 1, -120⟩,
  ⟨0x1F90, 0x1F97, 1, -104⟩, ⟨0x1FA0, 0x1FA7, 1, -56⟩, ⟨0x1FB2, 0x1FB2, 1, 8⟩,
  ⟨0x1FB3, 0x1FB3, 1, -7202⟩, ⟨0x1FB4, 0x1FB4, 1, -7214⟩, ⟨0x1FB6, 0x1FB6, 1, -7205⟩,
  ⟨0x1FB7, 0x1FB7, 1, -7206⟩, ⟨0x1FC2, 0x1FC2, 1, 8⟩, ⟨0x1FC3, 0x1FC3, 1, -7212⟩,
  ⟨0x1FC4, 0x1FC4, 1, -7227⟩, ⟨0x1FC6, 0x1FC6, 1, -7215⟩, ⟨0x1FC7, 0x1FC7, 1, -7216⟩,
  ⟨0x1FD2, 0x1FD2, 1, -7225⟩, ⟨0x1FD3, 0x1FD3, 1, -7226⟩, ⟨0x1FD6, 0x1FD6, 1, -7229⟩,
  ⟨0x1FD7, 0x1FD7, 1, -7230⟩, ⟨0x1FE2, 0x1FE2, 1, -7229⟩, ⟨0x1FE3, 0x1FE3, 1, -7230⟩,
  ⟨0x1FE4, 0x1FE4, 1, -7235⟩, ⟨0x1FE6, 0x1FE6, 1, -7233⟩, ⟨0x1FE7, 0x1FE7, 1, -7234⟩,
  ⟨0x1FF2, 0x1FF2, 1, 8⟩, ⟨0x1FF3, 0x1FF3, 1, -7242⟩, ⟨0x1FF4, 0x1FF4, 1, -7269⟩,
  ⟨0x1FF6, 0x1FF6, 1, -7245⟩, ⟨0x1FF7, 0x1FF7, 1, -7246⟩, ⟨0xFB00, 0xFB00, 1, -64186⟩,
  ⟨0xFB01, 0xFB01, 1, -64187⟩, ⟨0xFB02, 0xFB02, 1, -64188⟩, ⟨0xFB03, 0xFB03, 1, -64189⟩,
  ⟨0xFB04, 0xFB04, 1, -64190⟩, ⟨0xFB05, 0xFB05, 1, -64178⟩, ⟨0xFB06, 0xFB06, 1, -64179⟩,
  ⟨0xFB13, 0xFB13, 1, -62927⟩, ⟨0xFB14, 0xFB14, 1, -62928⟩, ⟨0xFB15, 0xFB15, 1, -62929⟩,
  ⟨0xFB16, 0xFB16, 1, -62920⟩, ⟨0xFB17, 0xFB17, 1, -62931⟩]

/-- The first of the characters with which a letter is written in capitals, if these are several. -/
def capitalInitial? (c : Char) : Option Char :=
  (capitalInitials.find? fun s => s.moves c.toNat).map fun s => Char.ofNat (s.image c.toNat)

end Applicability.Text
