import StagedJobs.Param.Type

namespace StagedJobs

/-- Whether a value is of the kind that a type stands for. -/
def ParamType.Holds : ParamType → Value → Prop
  | .string, .string _ => True
  | .integer, .number (.whole _) => True
  | .float, .number (.float _) => True
  | .boolean, .bool _ => True
  | .object, .object _ => True
  | .list, .list _ => True
  | .any, _ => True
  | _, _ => False

namespace Value

theorem holds_of_toString? {v w : Value} (h : v.toString? = some w) : ParamType.string.Holds w := by
  unfold toString? at h
  split at h
  case h_1 => simp at h
  case h_2 =>
    obtain rfl := Option.some.inj h
    trivial
  case h_3 =>
    obtain rfl := Option.some.inj h
    trivial

theorem holds_of_toInteger? {v w : Value} (h : v.toInteger? = some w) :
    ParamType.integer.Holds w := by
  unfold toInteger? at h
  split at h
  case h_1 =>
    obtain rfl := Option.some.inj h
    trivial
  case h_2 =>
    obtain ⟨n, -, rfl⟩ := Option.map_eq_some_iff.mp h
    trivial
  case h_3 =>
    obtain ⟨n, -, rfl⟩ := Option.map_eq_some_iff.mp h
    trivial
  case h_4 => simp at h

theorem holds_of_ofBinary64? {x : Binary64} {w : Value} (h : ofBinary64? x = some w) :
    ParamType.float.Holds w := by
  unfold ofBinary64? at h
  split at h
  case h_1 =>
    obtain rfl := Option.some.inj h
    trivial
  case h_2 => simp at h

theorem holds_of_toFloat? {v w : Value} (h : v.toFloat? = some w) : ParamType.float.Holds w := by
  unfold toFloat? at h
  split at h
  case h_1 => exact holds_of_ofBinary64? h
  case h_2 =>
    obtain ⟨x, -, hx⟩ := Option.bind_eq_some_iff.mp h
    exact holds_of_ofBinary64? hx
  case h_3 => simp at h

theorem holds_of_toBoolean? {v w : Value} (h : v.toBoolean? = some w) :
    ParamType.boolean.Holds w := by
  unfold toBoolean? at h
  split at h
  case h_1 =>
    obtain rfl := Option.some.inj h
    trivial
  case h_2 =>
    split at h
    · obtain rfl := Option.some.inj h
      trivial
    · split at h
      · obtain rfl := Option.some.inj h
        trivial
      · simp at h
  case h_3 =>
    obtain ⟨b, -, rfl⟩ := Option.map_eq_some_iff.mp h
    trivial
  case h_4 => simp at h

theorem holds_of_toObject? {v w : Value} (h : v.toObject? = some w) : ParamType.object.Holds w := by
  unfold toObject? at h
  split at h
  case h_1 =>
    obtain rfl := Option.some.inj h
    trivial
  case h_2 => simp at h

theorem holds_of_toList? {v w : Value} (h : v.toList? = some w) : ParamType.list.Holds w := by
  unfold toList? at h
  split at h
  case h_1 =>
    obtain rfl := Option.some.inj h
    trivial
  case h_2 => simp at h

end Value

namespace ParamType

theorem holds_of_convert? {type : ParamType} {v w : Value} (h : type.convert? v = some w) :
    type.Holds w := by
  cases type with
  | string => exact Value.holds_of_toString? h
  | integer => exact Value.holds_of_toInteger? h
  | float => exact Value.holds_of_toFloat? h
  | boolean => exact Value.holds_of_toBoolean? h
  | object => exact Value.holds_of_toObject? h
  | list => exact Value.holds_of_toList? h
  | any => trivial

theorem convert?_of_holds {type : ParamType} {v : Value} (h : type.Holds v) :
    type.convert? v = some v := by
  unfold Holds at h
  split at h
  case h_8 => exact absurd h id
  all_goals rfl

/-- Converting a second time changes nothing. -/
theorem convert?_of_convert? {type : ParamType} {v w : Value} (h : type.convert? v = some w) :
    type.convert? w = some w :=
  convert?_of_holds (holds_of_convert? h)

theorem eq_any_of_holds_null {type : ParamType} (h : type.Holds .null) : type = .any := by
  cases type with
  | any => rfl
  | string => exact absurd h id
  | integer => exact absurd h id
  | float => exact absurd h id
  | boolean => exact absurd h id
  | object => exact absurd h id
  | list => exact absurd h id

theorem ne_null_of_convert? {type : ParamType} {v w : Value} (hv : v ≠ .null)
    (h : type.convert? v = some w) : w ≠ .null := by
  rintro rfl
  obtain rfl := eq_any_of_holds_null (holds_of_convert? h)
  exact hv (Option.some.inj h)

end ParamType

end StagedJobs
