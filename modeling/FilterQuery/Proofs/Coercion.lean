import FilterQuery.Proofs.IsoReading
import FilterQuery.Value

/-!
Texts that coercion turns into dates and date-times. Main statements: a text of the ISO form that
makes sense is coerced, unless it has an offset and no seconds; and a text is coerced to what is
written in it, in universal time, or not at all.
-/

namespace FilterQuery

open Iso

namespace Shelter

def visitDay : DateForm :=
  ⟨⟨2018, by decide⟩, ⟨12, by decide⟩, ⟨15, by decide⟩⟩

theorem visitDay_valid : visitDay.IsValid :=
  ⟨by decide, by decide, by decide, by decide⟩

def visitMinute (zone : Option ZoneForm) : DateTimeForm :=
  ⟨visitDay, 'T', by decide, ⟨8, by decide⟩, ⟨0, by decide⟩, none, zone⟩

theorem visitMinute_sensible {zone : Option ZoneForm}
    (sensible : ∀ other ∈ zone, other.IsSensible) :
    (visitMinute zone).IsSensible :=
  ⟨visitDay_valid, (by decide : 8 ≤ 23), (by decide : 0 ≤ 59), (by decide : 0 ≤ 60), sensible⟩

end Shelter

namespace Value

theorem coerce_eq_date_iff {text : String} {day : Date} :
    coerce (.text text) = .date day ↔ Date.read? text.toList = some day := by
  rw [coerce, temporal?]
  cases Date.read? text.toList <;> cases DateTime.read? text.toList <;> simp

theorem not_date_of_form {text : String} {form : DateTimeForm}
    (written : form.chars = text.toList) :
    Date.read? text.toList = none := by
  rw [Option.eq_none_iff_forall_ne_some, ← written]
  intro day read
  obtain ⟨short, same⟩ := Date.exists_form read
  have width := form.length_chars
  rw [← same, short.length_chars] at width
  omega

theorem coerce_eq_dateTime_iff {text : String} {time : DateTime} :
    coerce (.text text) = .dateTime time ↔ DateTime.read? text.toList = some time := by
  rw [coerce, temporal?]
  cases timeRead : DateTime.read? text.toList with
  | none => cases Date.read? text.toList <;> simp
  | some other =>
      obtain ⟨form, written⟩ := DateTime.exists_form timeRead
      simp [not_date_of_form written]

theorem coerce_text_cases (text : String) :
    (∃ day, coerce (.text text) = .date day) ∨ (∃ time, coerce (.text text) = .dateTime time) ∨
      coerce (.text text) = .text text := by
  rw [coerce, temporal?]
  cases Date.read? text.toList <;> cases DateTime.read? text.toList <;> simp

theorem coerce_coerce (value : Value) : value.coerce.coerce = value.coerce := by
  cases value with
  | text text =>
      rcases coerce_text_cases text with ⟨day, coerced⟩ | ⟨time, coerced⟩ | coerced
      · rw [coerced]; rfl
      · rw [coerced]; rfl
      · rw [coerced, coerced]
  | _ => rfl

/-- A text has the form of a date exactly when it is one that a date's fields are written to, and is
coerced to a date when these make sense. A text of the form of a date-time is coerced to a date-time
when its fields make sense, and it does not leave out the seconds before an offset; then it stays a
text. -/
theorem coerce_of_form (text : String) :
    (text.toList ∈ Pattern.date.matches' ↔ ∃ form : DateForm, form.chars = text.toList) ∧
      (∀ form : DateForm, form.chars = text.toList → form.IsValid →
        ∃ day, coerce (.text text) = .date day ∧ form.Denotes day) ∧
      (text.toList ∈ Pattern.dateTime.matches' ↔ ∃ form : DateTimeForm, form.chars = text.toList) ∧
      (∀ form : DateTimeForm, form.chars = text.toList → form.IsSensible →
        (form.IsComplete → ∃ time, coerce (.text text) = .dateTime time) ∧
          (¬ form.IsComplete → coerce (.text text) = .text text)) := by
  refine ⟨Pattern.writes_date _, ?date, Pattern.writes_dateTime _, ?dateTime⟩
  case date =>
    intro form written valid
    obtain ⟨day, denotes⟩ := DateForm.exists_of_isValid valid
    exact ⟨day,
      coerce_eq_date_iff.mpr (Date.read?_eq_some_iff.mpr ⟨form, written, denotes⟩), denotes⟩
  case dateTime =>
    intro form written sensible
    constructor
    · intro complete
      obtain ⟨time, read⟩ := DateTime.exists_of_sensible sensible complete
      rw [written] at read
      exact ⟨time, coerce_eq_dateTime_iff.mpr read⟩
    · intro incomplete
      rcases coerce_text_cases text with ⟨day, coerced⟩ | ⟨time, coerced⟩ | kept
      · cases (not_date_of_form written).symm.trans (coerce_eq_date_iff.mp coerced)
      · rw [coerce_eq_dateTime_iff, ← written] at coerced
        exact absurd (DateTime.denotes_of_read coerced).complete incomplete
      · exact kept

/-- A day, a minute of it, and the same minute with an offset; the last stays a text. -/
theorem visit_coerced :
    (∃ day, coerce (.text "2018-12-15") = .date day) ∧
      (∃ time, coerce (.text "2018-12-15T08:00") = .dateTime time) ∧
        coerce (.text "2018-12-15T08:00Z") = .text "2018-12-15T08:00Z" := by
  refine ⟨?day, ?minute, ?offset⟩
  case day =>
    obtain ⟨day, coerced, _⟩ := (coerce_of_form "2018-12-15").2.1 Shelter.visitDay (by decide)
      Shelter.visitDay_valid
    exact ⟨day, coerced⟩
  case minute =>
    exact ((coerce_of_form "2018-12-15T08:00").2.2.2 (Shelter.visitMinute none) (by decide)
      (Shelter.visitMinute_sensible (by simp))).1 (.inl rfl)
  case offset =>
    refine ((coerce_of_form "2018-12-15T08:00Z").2.2.2
      (Shelter.visitMinute (some .universal)) (by decide) (Shelter.visitMinute_sensible ?_)).2 ?_
    · simp [ZoneForm.IsSensible]
    · simp [DateTimeForm.IsComplete, Shelter.visitMinute]

/-- This text has the form of a date-time, and all that is written in it makes sense, but it stays a
text. -/
theorem offset_without_seconds_kept :
    "2018-12-15T08:00Z".toList ∈ Pattern.dateTime.matches' ∧
      (∃ form : DateTimeForm, form.chars = "2018-12-15T08:00Z".toList ∧ form.IsSensible) ∧
        coerce (.text "2018-12-15T08:00Z") = .text "2018-12-15T08:00Z" := by
  have written : (Shelter.visitMinute (some .universal)).chars = "2018-12-15T08:00Z".toList := by
    decide
  refine ⟨(Pattern.writes_dateTime _).mpr ⟨_, written⟩,
    ⟨_, written, Shelter.visitMinute_sensible ?_⟩, rfl⟩
  simp [ZoneForm.IsSensible]

/-- A text is coerced to the date that is written in it, or to the universal time of the date-time
that is written in it; what is neither stays as it is. So nothing is coerced twice. -/
theorem coerce_exact (text : String) :
    (∀ day, coerce (.text text) = .date day ↔
      ∃ form : DateForm, form.chars = text.toList ∧ form.Denotes day) ∧
      (∀ time, coerce (.text text) = .dateTime time ↔
        ∃ form : DateTimeForm, form.chars = text.toList ∧ form.Denotes time) ∧
      ((∃ day, coerce (.text text) = .date day) ∨ (∃ time, coerce (.text text) = .dateTime time) ∨
        coerce (.text text) = .text text) ∧
      ∀ value : Value, value.coerce.coerce = value.coerce := by
  refine ⟨fun day => ?_, fun time => ?_, coerce_text_cases text, coerce_coerce⟩
  · rw [coerce_eq_date_iff, Date.read?_eq_some_iff]
  · rw [coerce_eq_dateTime_iff, DateTime.read?_eq_some_iff]

example : coerce (.text "9999-12-31T23:59:60.5-00:01") =
    .dateTime ⟨⟨10000, 1, 1, by decide⟩, 0, 0, 59, 1500000000, by decide⟩ :=
  coerce_eq_dateTime_iff.mpr (by decide)

end Value

/-! The years of what is coerced. -/

def Date.IsPlain (year : Int) : Prop :=
  0 ≤ year ∧ year ≤ 9999

def DateTime.InReach (time : DateTime) : Prop :=
  -1 ≤ time.date.year ∧ time.date.year ≤ 10000

namespace Iso

theorem DateForm.Denotes.isPlain {form : DateForm} {date : Date} (denotes : form.Denotes date) :
    Date.IsPlain date.year := by
  have fits : form.year.val < 10000 := form.year.isLt
  rw [denotes.1, Date.IsPlain]
  omega

theorem DateForm.Denotes.dayNumber_eq {form : DateForm} {date : Date}
    (denotes : form.Denotes date) :
    date.dayNumber = form.dayNumber := by
  rw [Date.dayNumber, denotes.1, denotes.2.1, denotes.2.2, DateForm.dayNumber]

namespace DateTimeForm.Denotes

variable {form : DateTimeForm} {time : DateTime}

theorem date_near (denotes : form.Denotes time) {written : Date}
    (dated : form.date.Denotes written) :
    time.date = written.previous ∨ time.date = written ∨ time.date = written.next := by
  have bounded : -1440 < form.minutesAhead ∧ form.minutesAhead < 1440 := by
    rw [DateTimeForm.minutesAhead]
    cases given : form.zone with
    | none => decide
    | some zone => exact (denotes.sensible.zone zone given).bounded
  have minute := denotes.minute
  have valid := time.valid
  have hour := denotes.sensible.hour
  have inHour := denotes.sensible.minute
  rw [DateTime.minuteNumber, DateTimeForm.minuteNumber, ← dated.dayNumber_eq] at minute
  rw [← Date.dayNumber_inj, ← Date.dayNumber_inj, ← Date.dayNumber_inj, Date.dayNumber_previous,
    Date.dayNumber_next]
  omega

theorem inReach (denotes : form.Denotes time) : time.InReach := by
  obtain ⟨written, dated⟩ := DateForm.exists_of_isValid denotes.sensible.date
  have plain := dated.isPlain
  have before := written.year_previous
  have after := written.year_next
  rw [Date.IsPlain] at plain
  rw [DateTime.InReach]
  rcases denotes.date_near dated with same | same | same <;> rw [same] <;> omega

theorem isPlain (denotes : form.Denotes time) (noZone : form.zone = none) :
    Date.IsPlain time.date.year := by
  obtain ⟨written, dated⟩ := DateForm.exists_of_isValid denotes.sensible.date
  have minute := denotes.minute
  have valid := time.valid
  have hour := denotes.sensible.hour
  have inHour := denotes.sensible.minute
  rw [DateTime.minuteNumber, DateTimeForm.minuteNumber, ← dated.dayNumber_eq,
    DateTimeForm.minutesAhead, noZone, Option.elim_none] at minute
  have same : time.date = written := Date.dayNumber_inj.mp (by omega)
  rw [same]
  exact dated.isPlain

end DateTimeForm.Denotes

end Iso

end FilterQuery
