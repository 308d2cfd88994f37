import TestExplorer.Proofs.Components
import TestExplorer.Server.Uri

set_option autoImplicit false

namespace TestExplorer

namespace Percent

theorem byteOf?_hexChar : ∀ b : Fin 256,
    byteOf? (hexChar (b.val / 16)) (hexChar (b.val % 16)) = some (UInt8.ofNat b.val) := by
  decide +kernel

theorem plain_inSegment : ∀ b : Fin 256, inSegment (UInt8.ofNat b.val) = false →
    Char.ofNat b.val ≠ '%' ∧
      Text.toBytes (String.ofList [Char.ofNat b.val]) = [UInt8.ofNat b.val] := by
  decide +kernel

theorem decode_cons {c : Char} (plain : c ≠ '%') (rest : List Char) :
    decode (c :: rest) = Text.toBytes (String.ofList [c]) ++ decode rest := by
  rw [decode]
  rintro a b tail rfl
  contradiction

theorem decode_encodeByte (b : UInt8) (rest : List Char) :
    decode (encodeByte inSegment b ++ rest) = b :: decode rest := by
  have known : UInt8.ofNat b.toNat = b := UInt8.ofNat_toNat
  unfold encodeByte
  split
  next =>
    have read := byteOf?_hexChar ⟨b.toNat, b.toNat_lt⟩
    simp only [known] at read
    simp only [List.cons_append, List.nil_append, decode, read]
  next plain =>
    obtain ⟨noPercent, read⟩ :=
      plain_inSegment ⟨b.toNat, b.toNat_lt⟩ (by simpa [known] using plain)
    simp only [known] at read
    rw [List.singleton_append, decode_cons noPercent, read, List.singleton_append]

theorem decode_encode (bytes : List UInt8) (rest : List Char) :
    decode (encode inSegment bytes ++ rest) = bytes ++ decode rest := by
  induction bytes with
  | nil => rfl
  | cons b bytes ih =>
    rw [encode, List.flatMap_cons, List.append_assoc, decode_encodeByte, ← encode, ih]
    rfl

end Percent

namespace Uri

open TestExplorer.Path

theorem filterMap_nameOf (body : List (List UInt8)) :
    (body.filterMap Component.ofSegment?).filterMap nameOf = body.filter (! isIdle ·) := by
  induction body with
  | nil => rfl
  | cons s rest ih =>
    rw [List.filterMap_cons, List.filter_cons, ← ih, Component.ofSegment?]
    by_cases idle : isIdle s
    · simp [idle]
    · by_cases up : s = [dot, dot]
      · subst up
        simp [idle, nameOf]
      · simp [idle, up, nameOf]

theorem closeDrive_same (tail : List UInt8) : Same ⟨closeDrive (slash :: tail)⟩ ⟨slash :: tail⟩ := by
  unfold closeDrive
  split
  next =>
    split
    next => exact same_append_slash tail
    next => rfl
  next => rfl

theorem decode_names (names : List (List UInt8)) :
    Percent.decode (names.flatMap fun name => '/' :: Percent.encode Percent.inSegment name) =
      names.flatMap (slash :: ·) := by
  induction names with
  | nil => rfl
  | cons name names ih =>
    rw [List.flatMap_cons, List.cons_append, Percent.decode_cons (by decide), Percent.decode_encode,
      ih]
    rfl

theorem filterMap_busy (body : List (List UInt8)) :
    (body.filter (! isIdle ·)).filterMap Component.ofSegment? =
      body.filterMap Component.ofSegment? := by
  rw [List.filterMap_filter]
  congr 1
  funext s
  cases idle : isIdle s <;> simp [Component.ofSegment?, idle]

theorem same_of_names (tail : List UInt8) {name : List UInt8} {names : List (List UInt8)}
    (named : (segments tail).filter (! isIdle ·) = name :: names) :
    Same ⟨slash :: (name ++ names.flatMap (slash :: ·))⟩ ⟨slash :: tail⟩ := by
  have one : ∀ n ∈ name :: names, slash ∉ n := by
    intro n member
    rw [← named] at member
    exact not_mem_of_segments tail n (List.mem_filter.1 member).1
  rw [Same, components_rooted, components_rooted, segments_joined one, ← named, filterMap_busy]

theorem toPath?_ofPath? {p : Path} (absolute : p.isAbsolute) :
    ∃ u q, ofPath? p = some u ∧ u.toPath? = some q ∧ q.Same p := by
  obtain ⟨tail, rfl⟩ : ∃ tail, p = ⟨slash :: tail⟩ := by
    obtain ⟨bytes⟩ := p
    cases bytes with
    | nil => contradiction
    | cons b tail => exact ⟨tail, by simpa [isAbsolute] using absolute⟩
  have names : (components ⟨slash :: tail⟩).filterMap nameOf =
      (segments tail).filter (! isIdle ·) := by
    rw [components_rooted, List.filterMap_cons, ← filterMap_nameOf]
    rfl
  cases named : (segments tail).filter (! isIdle ·) with
  | nil =>
    refine ⟨{ scheme := "file", authority := some "", path := "/" }, ⟨[slash]⟩, ?_, rfl, ?_⟩
    · simp [ofPath?, absolute, names, named]
    · rw [Same, components_rooted, components_rooted, ← filterMap_busy (segments tail), named]
      rfl
  | cons name rest =>
    let path := (name :: rest).flatMap fun name => '/' :: Percent.encode Percent.inSegment name
    refine ⟨{ scheme := "file", authority := some "", path := String.ofList path },
      ⟨closeDrive (slash :: (name ++ rest.flatMap (slash :: ·)))⟩, ?_, ?_, ?_⟩
    · simp only [ofPath?, absolute, names, named, if_true, path]
    · have start : path = '/' :: (Percent.encode Percent.inSegment name ++
          rest.flatMap fun name => '/' :: Percent.encode Percent.inSegment name) := rfl
      have here (path : String) :
          isLocal { scheme := "file", authority := some "", path := path } = true := rfl
      simp only [toPath?, String.toList_ofList, start, here, Bool.not_true, Bool.or_false,
        Bool.false_eq_true, if_false, Percent.decode_encode, decode_names]
    · exact (closeDrive_same _).trans (same_of_names tail named)

theorem isAbsolute_of_toPath? {u : Uri} {p : Path} (named : u.toPath? = some p) :
    p.isAbsolute := by
  unfold toPath? at named
  split at named
  next =>
    split at named
    next => contradiction
    next =>
      obtain rfl := Option.some.inj named
      unfold closeDrive
      split
      next => split <;> simp [Path.isAbsolute]
      next => simp [Path.isAbsolute]
  next => contradiction

theorem lawful : Server.Addresses.Lawful Uri where
  absolute _ _ := isAbsolute_of_toPath?
  rooted _ _ address := (Option.ite_none_right_eq_some.1 address).1
  returns _ := toPath?_ofPath?

end Uri

end TestExplorer
