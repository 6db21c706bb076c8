import Mathlib.Algebra.Order.Ring.Rat
import Mathlib.Data.Nat.Cast.Order.Ring
import NomadiCore.OpenAtFilter

/-!
# The shop filter

`validateCafe` of `public/js/helper.js` against the filters that `getFilter`
reads off the filter form.  An attribute of a shop may be any value of the
page's language; how a text is read as a number is left open.
-/

namespace NomadiCore.ShopFilter

/-! ## Attribute values -/

/-- A number; `-0` is `0`, as no comparison here tells them apart. -/
inductive JsNumber where
  | nan
  | finite (value : ℚ)
  | infinite (negative : Bool)
deriving DecidableEq

/-- A value; of an object only the number it is converted to matters. -/
inductive JsValue where
  | undefined
  | null
  | boolean (value : Bool)
  | number (value : JsNumber)
  | text (value : String)
  | object (asNumber : JsNumber)
deriving DecidableEq

namespace JsNumber

/-- `number < bound`; nothing is less or greater than `NaN`. -/
def lessThan (number : JsNumber) (bound : Nat) : Bool :=
  match number with
  | nan => false
  | finite value => value < bound
  | infinite negative => negative

def truthy : JsNumber → Bool
  | nan => false
  | finite value => value ≠ 0
  | infinite _ => true

/-- A number below a bound is below every higher one. -/
theorem lessThan_mono
    {number : JsNumber} {low high : Nat} (order : low ≤ high)
    (less : number.lessThan low = true) :
    number.lessThan high = true := by
  cases number with
  | nan => exact less
  | infinite negative => exact less
  | finite value =>
      simp only [lessThan, decide_eq_true_eq] at less ⊢
      exact lt_of_lt_of_le less (Nat.cast_le.mpr order)

end JsNumber

namespace JsValue

/-- The number a value is compared as. -/
def toNumber (readNumber : String → JsNumber) : JsValue → JsNumber
  | undefined => .nan
  | null => .finite 0
  | boolean value => .finite (if value then 1 else 0)
  | number value => value
  | text value => readNumber value
  | object asNumber => asNumber

/-- What `!value` negates. -/
def truthy : JsValue → Bool
  | undefined => false
  | null => false
  | boolean value => value
  | number value => value.truthy
  | text value => value ≠ ""
  | object _ => true

end JsValue

/-! ## Shops and filters -/

/-- The attributes that `validateAttr` is called for. -/
inductive RatingAttr where
  | wifi
  | seat
  | quiet
  | tasty
  | food
  | cheap
  | music
deriving DecidableEq

/-- The attributes that `validateAttrBool` is called for. -/
inductive BoolAttr where
  | hasSingleOrigin
  | hasDessert
  | hasMeal
  | checkins
deriving DecidableEq

/-- `cafe.attr`. -/
structure CafeAttr where
  rating : RatingAttr → JsValue
  flag : BoolAttr → JsValue
  socket : JsValue
  limitedTime : JsValue
  standingDesk : JsValue
  businessType : JsValue
  businessHours : Weekday → DayHours

structure CafeFilter where
  rating : RatingAttr → String
  flag : BoolAttr → Bool
  standingDesk : Bool
  limitedTime : String
  socket : String
  businessType : Bool
  isOpen : Bool
  isOpenAtDay : Weekday
  isOpenAtTime : String

section Validation

variable (readNumber : String → JsNumber) (now : Moment)

def validateAttr
    (cafe : CafeAttr) (filter : CafeFilter) (attr : RatingAttr) : Bool :=
  if filter.rating attr = "5" ∧
      ((cafe.rating attr).toNumber readNumber).lessThan 5 then false
  else if filter.rating attr = "4+" ∧
      ((cafe.rating attr).toNumber readNumber).lessThan 4 then false
  else if filter.rating attr = "3+" ∧
      ((cafe.rating attr).toNumber readNumber).lessThan 3 then false
  else true

def validateAttrBool
    (cafe : CafeAttr) (filter : CafeFilter) (attr : BoolAttr) : Bool :=
  if filter.flag attr ∧ !(cafe.flag attr).truthy then false
  else true

def validateSocket (cafe : CafeAttr) (filter : CafeFilter) : Bool :=
  if filter.socket = "yes" ∧ cafe.socket ≠ .text "yes" then false
  else if filter.socket = "maybe+" ∧ cafe.socket = .text "no" then false
  else if filter.socket = "maybe+" ∧ cafe.socket = .text "" then false
  else true

def validateLimitedTime (cafe : CafeAttr) (filter : CafeFilter) : Bool :=
  if filter.limitedTime = "no" ∧ cafe.limitedTime ≠ .text "no" then false
  else if filter.limitedTime = "maybe+" ∧
      cafe.limitedTime = .text "yes" then false
  else if filter.limitedTime = "maybe+" ∧
      cafe.limitedTime = .text "" then false
  else true

/-- The check that stands in `validateCafe` itself. -/
def validateStandingDesk (cafe : CafeAttr) (filter : CafeFilter) : Bool :=
  if filter.standingDesk ∧ cafe.standingDesk ≠ .text "yes" then false
  else true

def validateBusinessType (cafe : CafeAttr) (filter : CafeFilter) : Bool :=
  if filter.businessType = true ∧ cafe.businessType ≠ .text "local" then
    false
  else true

/-- The part of a filter that `validateBusinessHours` reads. -/
def CafeFilter.openAt (filter : CafeFilter) : OpenFilter :=
  ⟨filter.isOpen, filter.isOpenAtDay, filter.isOpenAtTime⟩

def validateCafe (cafe : CafeAttr) (filter : CafeFilter) : Bool :=
  validateAttr readNumber cafe filter .wifi &&
  validateAttr readNumber cafe filter .seat &&
  validateAttr readNumber cafe filter .quiet &&
  validateAttr readNumber cafe filter .tasty &&
  validateAttr readNumber cafe filter .food &&
  validateAttr readNumber cafe filter .cheap &&
  validateAttr readNumber cafe filter .music &&
  validateAttrBool cafe filter .hasSingleOrigin &&
  validateAttrBool cafe filter .hasDessert &&
  validateAttrBool cafe filter .hasMeal &&
  validateSocket cafe filter &&
  validateLimitedTime cafe filter &&
  validateStandingDesk cafe filter &&
  validateBusinessType cafe filter &&
  validateAttrBool cafe filter .checkins &&
  validateBusinessHours now cafe.businessHours filter.openAt

/-- A shop is accepted when every check accepts it. -/
theorem validateCafe_eq_true_iff
    (cafe : CafeAttr) (filter : CafeFilter) :
    validateCafe readNumber now cafe filter = true ↔
      (∀ attr, validateAttr readNumber cafe filter attr = true) ∧
      (∀ attr, validateAttrBool cafe filter attr = true) ∧
      validateSocket cafe filter = true ∧
      validateLimitedTime cafe filter = true ∧
      validateStandingDesk cafe filter = true ∧
      validateBusinessType cafe filter = true ∧
      validateBusinessHours now cafe.businessHours filter.openAt = true := by
  simp only [validateCafe, Bool.and_eq_true]
  constructor
  · rintro ⟨⟨⟨⟨⟨⟨⟨⟨⟨⟨⟨⟨⟨⟨⟨wifi, seat⟩, quiet⟩, tasty⟩, food⟩, cheap⟩, music⟩,
      origin⟩, dessert⟩, meal⟩, socket⟩, limited⟩, standing⟩, business⟩,
      checkins⟩, hours⟩
    refine ⟨fun attr => ?_, fun attr => ?_, socket, limited, standing,
      business, hours⟩
    · cases attr <;> assumption
    · cases attr <;> assumption
  · rintro ⟨rating, flag, socket, limited, standing, business, hours⟩
    exact ⟨⟨⟨⟨⟨⟨⟨⟨⟨⟨⟨⟨⟨⟨⟨rating .wifi, rating .seat⟩, rating .quiet⟩,
      rating .tasty⟩, rating .food⟩, rating .cheap⟩, rating .music⟩,
      flag .hasSingleOrigin⟩, flag .hasDessert⟩, flag .hasMeal⟩, socket⟩,
      limited⟩, standing⟩, business⟩, flag .checkins⟩, hours⟩

end Validation

/-! ## The filter form -/

/-- The options of `_attr-filter-options`. -/
inductive RatingOption where
  | any
  | threePlus
  | fourPlus
  | five
deriving DecidableEq

inductive SocketOption where
  | any
  | maybePlus
  | yes
deriving DecidableEq

inductive LimitedTimeOption where
  | any
  | maybePlus
  | no
deriving DecidableEq

namespace RatingOption

def value : RatingOption → String
  | any => "any"
  | threePlus => "3+"
  | fourPlus => "4+"
  | five => "5"

/-- The options from the weakest to the strictest. -/
def strictness : RatingOption → Nat
  | any => 0
  | threePlus => 1
  | fourPlus => 2
  | five => 3

end RatingOption

namespace SocketOption

def value : SocketOption → String
  | any => "any"
  | maybePlus => "maybe+"
  | yes => "yes"

def strictness : SocketOption → Nat
  | any => 0
  | maybePlus => 1
  | yes => 2

end SocketOption

namespace LimitedTimeOption

def value : LimitedTimeOption → String
  | any => "any"
  | maybePlus => "maybe+"
  | no => "no"

def strictness : LimitedTimeOption → Nat
  | any => 0
  | maybePlus => 1
  | no => 2

end LimitedTimeOption

/-- What is chosen and ticked in the form. -/
structure FilterForm where
  rating : RatingAttr → RatingOption
  flag : BoolAttr → Bool
  standingDesk : Bool
  limitedTime : LimitedTimeOption
  socket : SocketOption
  businessType : Bool
  isOpen : Bool
  isOpenAtDay : Weekday
  isOpenAtTime : String

def getFilter (form : FilterForm) : CafeFilter where
  rating attr := (form.rating attr).value
  flag := form.flag
  standingDesk := form.standingDesk
  limitedTime := form.limitedTime.value
  socket := form.socket.value
  businessType := form.businessType
  isOpen := form.isOpen
  isOpenAtDay := form.isOpenAtDay
  isOpenAtTime := form.isOpenAtTime

/-- `strict` is at least as strict as `weak` in every field. -/
structure AtLeastAsStrict (strict weak : FilterForm) : Prop where
  rating : ∀ attr,
    (weak.rating attr).strictness ≤ (strict.rating attr).strictness
  flag : ∀ attr, weak.flag attr = true → strict.flag attr = true
  standingDesk : weak.standingDesk = true → strict.standingDesk = true
  limitedTime : weak.limitedTime.strictness ≤ strict.limitedTime.strictness
  socket : weak.socket.strictness ≤ strict.socket.strictness
  businessType : weak.businessType = true → strict.businessType = true
  hours : weak.isOpen = true →
    strict.isOpen = true ∧
      strict.isOpenAtDay = weak.isOpenAtDay ∧
      strict.isOpenAtTime = weak.isOpenAtTime

/-! ## One check at a time -/

variable {readNumber : String → JsNumber} {cafe : CafeAttr}
variable {strict weak : FilterForm}

/-- A rating option rejects the ratings below its bound. -/
def RatingOption.bound : RatingOption → Option Nat
  | any => none
  | threePlus => some 3
  | fourPlus => some 4
  | five => some 5

theorem validateAttr_getFilter_iff (form : FilterForm) (attr : RatingAttr) :
    validateAttr readNumber cafe (getFilter form) attr = true ↔
      ∀ bound, (form.rating attr).bound = some bound →
        ((cafe.rating attr).toNumber readNumber).lessThan bound = false := by
  cases chosen : form.rating attr <;>
    simp [validateAttr, getFilter, chosen, RatingOption.value,
      RatingOption.bound]

theorem RatingOption.bound_mono
    {strict weak : RatingOption}
    (order : weak.strictness ≤ strict.strictness)
    {low : Nat} (bounded : weak.bound = some low) :
    ∃ high, strict.bound = some high ∧ low ≤ high := by
  cases weak <;> cases strict <;> cases bounded <;>
    simp_all [RatingOption.bound, RatingOption.strictness]

theorem validateAttr_mono
    (order : AtLeastAsStrict strict weak) {attr : RatingAttr}
    (accepted : validateAttr readNumber cafe (getFilter strict) attr = true) :
    validateAttr readNumber cafe (getFilter weak) attr = true := by
  rw [validateAttr_getFilter_iff] at accepted ⊢
  intro low bounded
  obtain ⟨high, highBound, lowHigh⟩ :=
    RatingOption.bound_mono (order.rating attr) bounded
  by_contra less
  have below :=
    JsNumber.lessThan_mono lowHigh (Bool.not_eq_false _ ▸ less)
  rw [accepted high highBound] at below
  cases below

/-- The checks of one box: nothing is asked while the box is not ticked. -/
theorem validateAttrBool_iff (filter : CafeFilter) (attr : BoolAttr) :
    validateAttrBool cafe filter attr = true ↔
      (filter.flag attr = true → (cafe.flag attr).truthy = true) := by
  cases ticked : filter.flag attr <;> simp [validateAttrBool, ticked]

theorem validateStandingDesk_iff (filter : CafeFilter) :
    validateStandingDesk cafe filter = true ↔
      (filter.standingDesk = true → cafe.standingDesk = .text "yes") := by
  cases ticked : filter.standingDesk <;> simp [validateStandingDesk, ticked]

theorem validateBusinessType_iff (filter : CafeFilter) :
    validateBusinessType cafe filter = true ↔
      (filter.businessType = true → cafe.businessType = .text "local") := by
  cases ticked : filter.businessType <;> simp [validateBusinessType, ticked]

theorem validateSocket_mono
    (order : AtLeastAsStrict strict weak)
    (accepted : validateSocket cafe (getFilter strict) = true) :
    validateSocket cafe (getFilter weak) = true := by
  have level := order.socket
  cases weakly : weak.socket <;> cases strictly : strict.socket <;>
    simp_all [validateSocket, getFilter, SocketOption.value,
      SocketOption.strictness]

theorem validateLimitedTime_mono
    (order : AtLeastAsStrict strict weak)
    (accepted : validateLimitedTime cafe (getFilter strict) = true) :
    validateLimitedTime cafe (getFilter weak) = true := by
  have level := order.limitedTime
  cases weakly : weak.limitedTime <;>
    cases strictly : strict.limitedTime <;>
    simp_all [validateLimitedTime, getFilter, LimitedTimeOption.value,
      LimitedTimeOption.strictness]

/-- With the same day and time the hours are judged alike at any instant. -/
theorem validateOpenAt_mono
    (order : AtLeastAsStrict strict weak) {now later : Moment}
    {hours : Weekday → DayHours}
    (accepted :
      validateBusinessHours now hours (getFilter strict).openAt = true) :
    validateBusinessHours later hours (getFilter weak).openAt = true := by
  cases asked : weak.isOpen with
  | false =>
      simp [validateBusinessHours, CafeFilter.openAt, getFilter, asked]
  | true =>
      obtain ⟨strictAsks, sameDay, sameTime⟩ := order.hours asked
      rw [validateBusinessHours_now now later]
      simp only [CafeFilter.openAt, getFilter, asked, strictAsks, sameDay,
        sameTime] at accepted ⊢
      exact accepted

/--
Tightening a filter never adds shops: a shop that is accepted under the
stricter filter, whenever it is looked at, is accepted under the weaker one.
-/
theorem validateCafe_tighten
    (readNumber : String → JsNumber) (now later : Moment)
    (cafe : CafeAttr) (weak strict : FilterForm)
    (order : AtLeastAsStrict strict weak)
    (accepted :
      validateCafe readNumber now cafe (getFilter strict) = true) :
    validateCafe readNumber later cafe (getFilter weak) = true := by
  rw [validateCafe_eq_true_iff] at accepted ⊢
  obtain ⟨rating, flag, socket, limited, standing, business, hours⟩ :=
    accepted
  refine ⟨fun attr => ?_, fun attr => ?_, ?_, ?_, ?_, ?_, ?_⟩
  · exact validateAttr_mono order (rating attr)
  · rw [validateAttrBool_iff]
    intro ticked
    exact (validateAttrBool_iff _ attr).mp (flag attr)
      (order.flag attr ticked)
  · exact validateSocket_mono order socket
  · exact validateLimitedTime_mono order limited
  · rw [validateStandingDesk_iff]
    intro ticked
    exact (validateStandingDesk_iff _).mp standing
      (order.standingDesk ticked)
  · rw [validateBusinessType_iff]
    intro ticked
    exact (validateBusinessType_iff _).mp business
      (order.businessType ticked)
  · exact validateOpenAt_mono order hours

/-- A shop that passes every check on Mondays. -/
def everyCheck : CafeAttr where
  rating _ := .number (.finite 5)
  flag _ := .boolean true
  socket := .text "yes"
  limitedTime := .text "no"
  standingDesk := .text "yes"
  businessType := .text "local"
  businessHours
    | .monday => ⟨some "08:00", some "18:00"⟩
    | _ => ⟨none, none⟩

/-- The strictest form, and one that asks for less. -/
def strictest : FilterForm where
  rating _ := .five
  flag _ := true
  standingDesk := true
  limitedTime := .no
  socket := .yes
  businessType := true
  isOpen := true
  isOpenAtDay := .monday
  isOpenAtTime := "09:30"

def lenient : FilterForm :=
  { strictest with
    rating := fun _ => .threePlus
    flag := fun _ => false
    socket := .maybePlus
    limitedTime := .any }

theorem validateCafe_tighten_strictest :
    validateCafe (fun _ => .nan) 0 everyCheck (getFilter strictest) = true ∧
      validateCafe (fun _ => .nan) 0 everyCheck (getFilter lenient) =
        true := by
  have order : AtLeastAsStrict strictest lenient := by
    constructor <;> simp [strictest, lenient, RatingOption.strictness,
      SocketOption.strictness, LimitedTimeOption.strictness]
  have accepted :
      validateCafe (fun _ => .nan) 0 everyCheck (getFilter strictest) =
        true := by
    decide +kernel
  exact ⟨accepted, validateCafe_tighten _ 0 0 _ _ _ order accepted⟩

end NomadiCore.ShopFilter
