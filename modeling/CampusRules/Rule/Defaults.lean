import CampusRules.Number.Decimal
import CampusRules.Rule.Basic

/-!
# The default rules

The workflows that an institution starts with when nothing is stored: enrolment,
grading, transcripts and certificates, financial aid, reminders and the library.

Some of their templates hold calls such as a date computation. No path leads
there, so those tokens reach the collaborators as they stand.
-/

namespace CampusRules.DefaultRules

/-- The token for a path. -/
def token (path : String) : String := "\x7b\x7b" ++ path ++ "\x7d\x7d"

/-- The members of an object with texts for values. -/
def texts (pairs : List (String × String)) : Members :=
  Members.ofPairs (pairs.map fun pair => (pair.1, .string pair.2))

/-- A float given in tenths. -/
def tenths (count : Nat) : Json :=
  match (Decimal.mk false count (-1)).toQuantity with
  | .finite number => .number (.float number)
  | _ => .null

/-- A small whole number. -/
def whole (count : UInt8) : Json := .number (.ofUInt8 count)

/-- A condition that is combined with the next by `and`, unless it says otherwise. -/
def condition (field : String) (operator : Operator) (value : Json)
    (next : Option Combinator := none) : Condition :=
  ⟨field, operator, value, next⟩

/-- A daily schedule. -/
def dailyAt (time : String) : Trigger := .schedule .daily time none none

/-- Confirms an enrolment by email and by notification. -/
def enrollmentConfirmation : NewRule where
  id := some "enrollment_confirmation"
  name := "Enrollment Confirmation"
  description := "Confirm a new enrollment by email and in-app notification"
  trigger := .event "student_enrolled"
  conditions := [condition "student.email" .contains (.string "@")]
  actions :=
    [⟨.email, Members.ofPairs [
        ("to", .string (token "student.email")),
        ("subject", .string ("Enrollment Confirmed: " ++ token "course.title")),
        ("template", .string "enrollment_confirmation"),
        ("variables", .object (texts [
          ("studentName", token "student.name"),
          ("courseTitle", token "course.title"),
          ("startDate", token "course.startDate"),
          ("instructor", token "course.instructor")]))]⟩,
      ⟨.notification, texts [
        ("userId", token "student.id"),
        ("type", "success"),
        ("title", "Enrollment Confirmed"),
        ("message", "You are now enrolled in " ++ token "course.title")]⟩]

/-- Computes the grade of a course anew when an assignment is graded. -/
def gradeCalculation : NewRule where
  id := some "grade_calculation"
  name := "Automatic Grade Calculation"
  description := "Recompute the course grade whenever an assignment is graded"
  trigger := .event "assignment_graded"
  conditions := [condition "submission.status" .equals (.string "graded")]
  actions :=
    [⟨.calculate, Members.ofPairs [
        ("operation", .string "weighted_average"),
        ("field", .string "final_grade"),
        ("weights", .object (Members.ofPairs [
          ("assignments", tenths 4), ("quizzes", tenths 2), ("exams", tenths 4)]))]⟩,
      ⟨.updateRecord, Members.ofPairs [
        ("table", .string "enrollments"),
        ("operation", .string "update"),
        ("where", .object (texts [
          ("studentId", token "student.id"), ("courseId", token "course.id")])),
        ("data", .object (texts [
          ("currentGrade", token "grade.percentage"), ("lastGradedAt", token "now")]))]⟩]

/-- Issues a transcript when a course is completed and no balance is held. -/
def transcriptGeneration : NewRule where
  id := some "transcript_generation"
  name := "Transcript Generation"
  description :=
    "Issue an updated transcript once a final grade exists and no balance is held"
  trigger := .event "course_completed"
  conditions :=
    [condition "enrollment.finalGrade" .isNotEmpty .null (some .and),
      condition "student.outstandingBalance" .lessThan (whole 1)]
  actions :=
    [⟨.generateReport, texts [
        ("type", "transcript"), ("studentId", token "student.id"), ("format", "pdf")]⟩,
      ⟨.email, Members.ofPairs [
        ("to", .string (token "student.email")),
        ("subject", .string "Your updated transcript is ready"),
        ("template", .string "transcript_ready"),
        ("variables", .object (texts [("courseTitle", token "course.title")]))]⟩]

/-- Reminds all students of assignments that are due within a day. -/
def assignmentDeadlineReminder : NewRule where
  id := some "assignment_deadline_reminder"
  name := "Assignment Deadline Reminder"
  description := "Daily reminder about assignments due within a day"
  trigger := dailyAt "09:00"
  actions :=
    [⟨.notification, texts [
        ("userId", "all_students"),
        ("type", "reminder"),
        ("title", "Assignments due soon"),
        ("message", "Assignments due before " ++ token "date_add(now, 1, \"days\")" ++
          " need your attention")]⟩]

/-- Issues a certificate for a passing grade. -/
def certificateIssuance : NewRule where
  id := some "certificate_issuance"
  name := "Certificate Issuance"
  description := "Issue a certificate for passing grades in certificate-enabled courses"
  trigger := .event "course_completed"
  conditions :=
    [condition "enrollment.finalGrade" .greaterThan (whole 70) (some .and),
      condition "course.certificateEnabled" .equals (.bool true)]
  actions :=
    [⟨.createRecord, Members.ofPairs [
        ("table", .string "certificates"),
        ("data", .object (texts [
          ("studentId", token "student.id"),
          ("courseId", token "course.id"),
          ("grade", token "enrollment.finalGrade"),
          ("issuedAt", token "now")]))]⟩,
      ⟨.email, Members.ofPairs [
        ("to", .string (token "student.email")),
        ("subject", .string ("Certificate of Completion: " ++ token "course.title")),
        ("template", .string "certificate_issued"),
        ("variables", .object (texts [
          ("studentName", token "student.name"), ("courseTitle", token "course.title")]))]⟩]

/-- Records approved aid and has an award letter written. -/
def financialAidApplication : NewRule where
  id := some "financial_aid_application"
  name := "Financial Aid Application"
  description := "Record approved aid and draft a personalised award letter"
  trigger := .event "financial_aid_approved"
  conditions :=
    [condition "application.status" .notEquals (.string "rejected") (some .and),
      condition "application.holds" .isEmpty .null]
  actions :=
    [⟨.updateRecord, Members.ofPairs [
        ("table", .string "financial_aid_applications"),
        ("operation", .string "update"),
        ("where", .object (texts [("id", token "application.id")])),
        ("data", .object (texts [
          ("status", "approved"),
          ("awardAmount", token "application.amount"),
          ("remainingBalance", token "subtract(student.tuition, application.amount)")]))]⟩,
      ⟨.aiAction, texts [
        ("operation", "award_letter"),
        ("prompt", "Write a short award letter for " ++ token "student.name" ++
          " confirming financial aid of " ++ token "application.amount")]⟩]

/-- Reports overdue items to the library. -/
def overdueLibraryNotice : NewRule where
  id := some "overdue_library_notice"
  name := "Overdue Library Notice"
  description := "Daily overdue items report for library staff"
  trigger := dailyAt "08:00"
  actions :=
    [⟨.generateReport, texts [
        ("type", "overdue_items"),
        ("asOf", token "now"),
        ("dueBefore", token "date_add(now, -1, \"days\")")]⟩,
      ⟨.email, texts [
        ("to", "library@institution.edu"),
        ("subject", "Overdue items report for " ++ token "now"),
        ("template", "overdue_report")]⟩]

/-- Puts the sessions of a course into a student's calendar. -/
def calendarSync : NewRule where
  id := some "calendar_sync"
  name := "Calendar Sync"
  description := "Add course sessions to the student's calendar"
  trigger := .event "student_enrolled"
  conditions :=
    [condition "course.startDate" .isNotEmpty .null (some .or),
      condition "course.schedule" .isNotEmpty .null]
  actions :=
    [⟨.createRecord, Members.ofPairs [
        ("table", .string "calendar_events"),
        ("data", .object (texts [
          ("userId", token "student.id"),
          ("title", token "course.title"),
          ("startDate", token "course.startDate"),
          ("schedule", token "course.schedule"),
          ("source", "enrollment")]))]⟩]

/-- The default rules in order. -/
def all : List NewRule :=
  [enrollmentConfirmation, gradeCalculation, transcriptGeneration, assignmentDeadlineReminder,
    certificateIssuance, financialAidApplication, overdueLibraryNotice, calendarSync]

end CampusRules.DefaultRules
