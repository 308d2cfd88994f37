import Mathlib.Data.List.Basic
import TestExplorer.Tree.Basic

/-!
Identifiers as keys. An identifier is a path and a name joined by a colon, so it tells documents
apart as long as no path holds a colon of its own. Where one does, two keys meet exactly when the
longer path goes on after the shorter one, and the shorter one's name makes up for the difference.
-/

set_option autoImplicit false

namespace TestExplorer

theorem Text.toBytes_of_ofBytes? {bytes : List UInt8} {text : String}
    (read : Text.ofBytes? bytes = some text) : Text.toBytes text = bytes := by
  unfold Text.ofBytes? String.fromUTF8? at read
  split at read
  next valid =>
    obtain rfl := Option.some.inj read
    simp [Text.toBytes, String.toUTF8_eq_toByteArray, String.fromUTF8]
  next => contradiction

theorem Path.eq_of_display {p q : Path} (textual : p.text?.isSome) (textual' : q.text?.isSome)
    (same : p.display = q.display) : p = q := by
  obtain ⟨a, readP⟩ := Option.isSome_iff_exists.1 textual
  obtain ⟨b, readQ⟩ := Option.isSome_iff_exists.1 textual'
  unfold Path.text? at readP readQ
  have equal : a = b := by simpa [Path.display, Text.ofBytes, readP, readQ] using same
  have bytes : p.bytes = q.bytes := by
    rw [← Text.toBytes_of_ofBytes? readP, ← Text.toBytes_of_ofBytes? readQ, equal]
  cases p
  cases q
  simpa using bytes

structure Path.Plain (p : Path) : Prop where
  textual : p.text?.isSome
  noColon : ':' ∉ p.display.toList

instance (p : Path) : Decidable p.Plain :=
  decidable_of_iff (p.text?.isSome ∧ ':' ∉ p.display.toList)
    ⟨fun h => ⟨h.1, h.2⟩, fun h => ⟨h.1, h.2⟩⟩

namespace Text

theorem colon_lists_eq_iff (a b x y : List Char) :
    a ++ ':' :: x = b ++ ':' :: y ↔
      a = b ∧ x = y ∨
        (∃ r, b = a ++ ':' :: r ∧ x = r ++ ':' :: y) ∨
          ∃ r, a = b ++ ':' :: r ∧ y = r ++ ':' :: x := by
  rw [List.append_eq_append_iff]
  constructor
  · rintro (⟨gap, same, rest⟩ | ⟨gap, same, rest⟩) <;> cases gap <;>
      simp_all [eq_comm (a := ':')]
  · rintro (⟨rfl, rfl⟩ | ⟨r, rfl, rfl⟩ | ⟨r, rfl, rfl⟩)
    · exact .inl ⟨[], by simp⟩
    · exact .inl ⟨':' :: r, by simp⟩
    · exact .inr ⟨':' :: r, by simp⟩

/-- Two joined texts are equal exactly when their parts are, or when one text opens the other and
the colon where it ends is one of two. -/
theorem colon_joined_eq_iff (a b x y : String) :
    a ++ ":" ++ x = b ++ ":" ++ y ↔
      a = b ∧ x = y ∨
        (∃ r, b = a ++ ":" ++ r ∧ x = r ++ ":" ++ y) ∨
          ∃ r, a = b ++ ":" ++ r ∧ y = r ++ ":" ++ x := by
  have lists := colon_lists_eq_iff a.toList b.toList x.toList y.toList
  have texts (p : List Char → Prop) : (∃ r, p r) ↔ ∃ r : String, p r.toList :=
    ⟨fun ⟨r, h⟩ => ⟨.ofList r, by simpa using h⟩, fun ⟨r, h⟩ => ⟨r.toList, h⟩⟩
  rw [texts, texts] at lists
  simpa [← String.toList_inj] using lists

theorem colon_joined_inj {a b x y : String} (plain : ':' ∉ a.toList) (plain' : ':' ∉ b.toList)
    (same : a ++ ":" ++ x = b ++ ":" ++ y) : a = b ∧ x = y := by
  rcases (colon_joined_eq_iff a b x y).1 same with equal | ⟨r, rfl, -⟩ | ⟨r, rfl, -⟩
  · exact equal
  · simp at plain'
  · simp at plain

theorem append_left_inj (a b c : String) : a ++ b = a ++ c ↔ b = c := by
  simp [← String.toList_inj]

theorem decimal_injective {m n : Nat} (same : decimal m = decimal n) : m = n := by
  have digits : Nat.toDigits 10 m = Nat.toDigits 10 n := by
    simpa [decimal, ← String.toList_inj] using same
  rw [← Nat.ofDigitChars_ten_toDigits (n := m), digits, Nat.ofDigitChars_ten_toDigits]

end Text

def ordinalMark (ordinal : Nat) : String :=
  if ordinal ≤ 1 then "" else "#" ++ Text.decimal ordinal

theorem ordinalMark_injective {j k : Nat} (first : 1 ≤ j) (first' : 1 ≤ k)
    (same : ordinalMark j = ordinalMark k) : j = k := by
  unfold ordinalMark at same
  split at same <;> split at same
  next => omega
  next => simp [← String.toList_inj] at same
  next => simp [← String.toList_inj] at same
  next => exact Text.decimal_injective ((Text.append_left_inj _ _ _).1 same)

/-- The key of `p` and `m` reads like the key of `q` and `n`, although `q` is the longer path. -/
def Path.Absorbs (p : Path) (m : String) (q : Path) (n : String) : Prop :=
  ∃ r, q.display = p.display ++ ":" ++ r ∧ m = r ++ ":" ++ n

theorem SuiteId.of_eq_iff (p q : Path) (m n : String) :
    SuiteId.of p m = SuiteId.of q n ↔
      p.display = q.display ∧ m = n ∨ p.Absorbs m q n ∨ q.Absorbs n p m := by
  unfold Path.Absorbs
  rw [← Text.colon_joined_eq_iff]
  simp [SuiteId.of, String.append_assoc]

theorem SuiteId.of_inj {p q : Path} {m n : String} (plain : p.Plain) (plain' : q.Plain)
    (same : SuiteId.of p m = SuiteId.of q n) : p = q ∧ m = n := by
  have joined : p.display ++ ":" ++ m = q.display ++ ":" ++ n := by
    simpa [SuiteId.of, String.append_assoc, Text.append_left_inj] using same
  have ⟨paths, names⟩ := Text.colon_joined_inj plain.noColon plain'.noColon joined
  exact ⟨Path.eq_of_display plain.textual plain'.textual paths, names⟩

namespace TestId

theorem text_of (p : Path) (m : String) (k : Nat) :
    (TestId.of p m k).text = "test:" ++ (p.display ++ ":" ++ (m ++ ordinalMark k)) := by
  unfold TestId.of ordinalMark
  split <;> simp [String.append_assoc]

theorem of_eq_of_iff (p q : Path) (m n : String) (j k : Nat) :
    TestId.of p m j = TestId.of q n k ↔
      p.display ++ ":" ++ (m ++ ordinalMark j) = q.display ++ ":" ++ (n ++ ordinalMark k) := by
  rw [TestId.mk.injEq, text_of, text_of, Text.append_left_inj]

theorem of_eq_iff (p q : Path) (m n : String) :
    TestId.of p m = TestId.of q n ↔
      p.display = q.display ∧ m = n ∨ p.Absorbs m q n ∨ q.Absorbs n p m := by
  unfold Path.Absorbs
  rw [← Text.colon_joined_eq_iff, of_eq_of_iff]
  simp [ordinalMark]

theorem path_inj {p q : Path} {m n : String} {j k : Nat} (plain : p.Plain) (plain' : q.Plain)
    (same : TestId.of p m j = TestId.of q n k) : p = q := by
  have ⟨paths, _⟩ := Text.colon_joined_inj plain.noColon plain'.noColon
    ((of_eq_of_iff p q m n j k).1 same)
  exact Path.eq_of_display plain.textual plain'.textual paths

theorem ordinal_inj {p : Path} {m : String} {j k : Nat} (first : 1 ≤ j) (first' : 1 ≤ k)
    (same : TestId.of p m j = TestId.of p m k) : j = k := by
  rw [of_eq_of_iff, Text.append_left_inj, Text.append_left_inj] at same
  exact ordinalMark_injective first first' same

end TestId

namespace Text

theorem hash_lists_inj {a b x y : List Char} (plain : '#' ∉ a) (plain' : '#' ∉ b)
    (mark : x = [] ∨ x.head? = some '#') (mark' : y = [] ∨ y.head? = some '#')
    (same : a ++ x = b ++ y) : a = b := by
  have opening {c r : List Char} (free : '#' ∉ c) (tail : r = [] ∨ r.head? = some '#') :
      (c ++ r).takeWhile (· ≠ '#') = c := by
    have all : ∀ ch ∈ c, decide (ch ≠ '#') = true := by
      intro ch member
      have other : ch ≠ '#' := ne_of_mem_of_not_mem member free
      simpa using other
    rw [List.takeWhile_append_of_pos all]
    cases r with
    | nil => simp
    | cons first rest => simp_all
  rw [← opening plain mark, same, opening plain' mark']

end Text

theorem ordinalMark_opening (k : Nat) :
    (ordinalMark k).toList = [] ∨ (ordinalMark k).toList.head? = some '#' := by
  unfold ordinalMark
  split
  next => exact .inl rfl
  next => exact .inr (by simp)

theorem TestId.name_inj {p : Path} {m n : String} {j k : Nat} (plain : '#' ∉ m.toList)
    (plain' : '#' ∉ n.toList) (same : TestId.of p m j = TestId.of p n k) : m = n := by
  rw [of_eq_of_iff, Text.append_left_inj, ← String.toList_inj, String.toList_append,
    String.toList_append] at same
  exact String.toList_inj.1 (Text.hash_lists_inj plain plain' (ordinalMark_opening j)
    (ordinalMark_opening k) same)

end TestExplorer
