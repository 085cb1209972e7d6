/-
What can be asked of the command: every list of images that has one, to be
started at every address, and no other (`Arguments.asked_iff`). The names
of the images do not matter, because behind a `--` nothing is an option,
and an address can be written with its four digits.
-/
import Lc3.CommandLine.Arguments
import Lc3.Proofs.Text.Digits

namespace Lc3

-- ======================================================== written numbers

namespace Text.Digits

/-- A number that has been written in hexadecimal is read. -/
theorem readDigits_hexDigits {bound : Nat} (width n : Nat)
    (h : n % 16 ^ width < bound) :
    readDigits 16 bound 0 (hexDigits width n) = .ok (n % 16 ^ width) := by
  induction width generalizing n with
  | zero => rw [Nat.pow_zero, Nat.mod_one]; rfl
  | succ width ih =>
      have hsplit : n % 16 ^ (width + 1)
          = n / 16 % 16 ^ width * 16 + n % 16 := by
        rw [Nat.pow_succ, Nat.mul_comm, Nat.mod_mul]
        omega
      have hdigit := digit?_digitChar (n % 16) (Nat.mod_lt n (by decide))
      rw [hexDigits, readDigits_append_eq_ok_iff]
      refine ⟨_, ih (n / 16) (by omega), ?_⟩
      exact readDigits_single_eq_ok_iff.2 ⟨_, hdigit, hsplit, h⟩

theorem digitChar_ne_plus : ∀ d < 16, Nat.digitChar d ≠ '+' := by
  decide

end Text.Digits

namespace Address

/-- An address as text, with all its digits. -/
def written (a : Word) : String := "0x" ++ Text.hex 4 a.toNat

/-- An address that was written with its four digits is read back, since its
mark is looked for first and four digits fit. -/
theorem ofString_written (a : Word) : ofString (written a) = .ok a := by
  have htext : (written a).toList
      = '0' :: 'x' :: Text.hexDigits 4 a.toNat := by
    rw [written, String.toList_append, Text.hex]
    exact congrArg (['0', 'x'] ++ ·) String.toList_ofList
  have hvalue : a.toNat % 16 ^ 4 = a.toNat := Nat.mod_eq_of_lt a.isLt
  have hdigits : Text.Digits.readDigits 16 65536 0
      (Text.hexDigits 4 a.toNat) = .ok a.toNat := by
    have hlt : a.toNat % 16 ^ 4 < 65536 := Nat.mod_lt _ (by decide)
    rw [Text.Digits.readDigits_hexDigits 4 a.toNat hlt, hvalue]
  have hfirst : Nat.digitChar (a.toNat / 16 / 16 / 16 % 16) ≠ '+' :=
    Text.Digits.digitChar_ne_plus _ (Nat.mod_lt _ (by decide))
  have hnumber : Text.Digits.readNumber 16 65536
      (Text.hexDigits 4 a.toNat) = .ok a.toNat :=
    (Text.Digits.readNumber_cons hfirst 16 65536 _).trans hdigits
  rw [ofString, htext]
  show (Text.Digits.readNumber 16 65536
    (Text.hexDigits 4 a.toNat)).map (BitVec.ofNat 16) = .ok a
  rw [hnumber]
  exact congrArg Except.ok (BitVec.ofNat_toNat 16 a)

end Address

-- ========================================================= command lines

namespace CommandLine

/-- A written address does not look like an option. -/
theorem shape_written (a : Word) : Shape.of (Address.written a) = .plain := by
  unfold Shape.of
  rw [Address.written, String.toList_append]
  rfl

namespace Gathered

/-- With nothing waiting, images are just put down. -/
theorem foldlM_addImage {g : Gathered} (h : g.waiting = none)
    (paths : List String) :
    paths.foldlM addImage g = .ok { g with images := g.images ++ paths } := by
  induction paths generalizing g with
  | nil => rw [List.append_nil]; rfl
  | cons path paths ih =>
      have hsettle : g.settle = .ok g := by rw [settle, h]
      have hone : g.addImage path
          = .ok { g with images := g.images ++ [path] } := by
        rw [addImage, hsettle]
        rfl
      rw [List.foldlM_cons, hone]
      refine (ih (g := { g with images := g.images ++ [path] }) h).trans ?_
      rw [List.append_assoc]
      rfl

/-- An address that is waiting is taken when everything has been seen. -/
theorem settle_written (a : Word) :
    ({ waiting := some (some (Address.written a)) } : Gathered).settle
      = .ok { start := some a } := by
  simp [settle, Address.ofString_written]

end Gathered

/-- A command line that asks for these images, to be started there. -/
def asking (paths : List String) (start : Word) : List String :=
  "--start" :: Address.written start :: "--" :: paths

namespace Gathered

/-- The option by itself asks for the address behind it. -/
theorem scan_start {g : Gathered} (h : g.settle = .ok g)
    (rest : List String) :
    g.scan ("--start" :: rest) = (g.offer none).scan rest := by
  have hshape : Shape.of "--start" = .long "start" none := by decide
  simp only [scan, hshape, h]
  exact pure_bind g _

/-- The address after `--start` is only put aside. -/
theorem scan_address {g : Gathered} (h : g.waiting = some none)
    (a : Word) (rest : List String) :
    g.scan (Address.written a :: rest)
      = (g.offer (some (Address.written a))).scan rest := by
  have hplain : g.addPlain (Address.written a)
      = .ok (g.offer (some (Address.written a))) := by
    rw [addPlain, h]
  simp only [scan, shape_written, hplain]
  exact pure_bind (g.offer (some (Address.written a))) _

/-- Behind the separator everything is an image, whatever it looks like. -/
theorem scan_separator (g : Gathered) (rest : List String) :
    g.scan ("--" :: rest) = (do
      let g ← rest.foldlM addImage g
      g.settle) := by
  have hshape : Shape.of "--" = .separator := by decide
  simp only [scan, hshape]

end Gathered

/-- The command line with all its parts is gathered from the front: the
option, the address, and then images only. -/
theorem scan_asking (path : String) (paths : List String) (start : Word) :
    ({} : Gathered).scan (asking (path :: paths) start)
      = .ok { images := path :: paths, start := some start } := by
  let offered : Gathered := { waiting := some (some (Address.written start)) }
  let begun : Gathered := { images := [path], start := some start }
  have hfirst : offered.addImage path = .ok begun := by
    rw [Gathered.addImage, Gathered.settle_written]
    rfl
  have hrest : paths.foldlM Gathered.addImage begun
      = .ok { images := path :: paths, start := some start } :=
    Gathered.foldlM_addImage rfl paths
  -- the address is put aside, and judged when the first image comes
  calc ({} : Gathered).scan (asking (path :: paths) start)
    _ = (({} : Gathered).offer none).scan
          (Address.written start :: "--" :: path :: paths) :=
      Gathered.scan_start rfl _
    _ = offered.scan ("--" :: path :: paths) :=
      Gathered.scan_address rfl start _
    _ = (do
          let g ← offered.addImage path
          let g ← paths.foldlM Gathered.addImage g
          g.settle) := by
      rw [Gathered.scan_separator, List.foldlM_cons, bind_assoc]
    _ = .ok { images := path :: paths, start := some start } := by
      rw [hfirst]
      show (do
        let g ← paths.foldlM Gathered.addImage begun
        g.settle) = _
      rw [hrest]
      rfl

/-- What was gathered is an answer, since there is an image. -/
theorem parse_asking {paths : List String} (h : paths ≠ [])
    (start : Word) :
    Arguments.parse (asking paths start) = .ok ⟨paths, start⟩ := by
  obtain ⟨path, paths, rfl⟩ := List.exists_cons_of_ne_nil h
  unfold Arguments.parse
  rw [scan_asking]
  rfl

/-- Every list of images can be asked for but the empty one. -/
theorem asked_iff (paths : List String) (start : Word) :
    (∃ arguments, Arguments.parse arguments = .ok ⟨paths, start⟩)
      ↔ paths ≠ [] := by
  constructor
  · rintro ⟨arguments, h⟩ rfl
    unfold Arguments.parse at h
    cases hscan : ({} : Gathered).scan arguments with
    | error r =>
        rw [hscan] at h
        cases h
    | ok g =>
        rw [hscan] at h
        obtain ⟨images, start', waiting⟩ := g
        cases images with
        | nil => cases h
        | cons path paths => cases h
  · intro h
    exact ⟨asking paths start, parse_asking h start⟩

end CommandLine

end Lc3
