import PromptSheet.Proofs.RecordFields

/-!
# States are read back

Every record of a state is written and read by its table of fields. The tables are lawful: the names
are distinct, each field is a part of the record of its own, and together they are all of it. So a
state comes back from what is written for it, whichever fields that nobody touched are left out and
whatever else is put beside the fields that are known.
-/

namespace PromptSheet

open PromptSheet.Field (AreLawful Apart edits_leaveOut)
open Relation (ReflTransGen)

instance : ColorMode.codec.FitsPresent .plain :=
  Codec.fits_choice fun chosen => by cases chosen <;> rfl

instance : DuotoneColor.codec.FitsPresent .plain :=
  Codec.fits_choice fun chosen => by cases chosen <;> rfl

instance : OutputStyle.codec.FitsPresent .plain :=
  Codec.fits_choice fun chosen => by cases chosen <;> rfl

instance : AspectRatio.codec.FitsPresent .plain :=
  Codec.fits_choice fun chosen => by cases chosen <;> rfl

instance : SceneType.codec.FitsPresent .plain :=
  Codec.fits_choice fun chosen => by cases chosen <;> rfl

instance : Speaker.codec.FitsPresent .plain :=
  Codec.fits_choice fun chosen => by cases chosen <;> rfl

/-! ### Records

Records that are parts of others come before them.
-/

theorem FaceSheet.fields_lawful : AreLawful FaceSheet.fields where
  distinct := by decide
  puts := by simp [FaceSheet.fields]
  apart := by simp [FaceSheet.fields, Apart]
  ext record other h := by
    cases record
    cases other
    simpa [FaceSheet.fields] using h

instance : FaceSheet.codec.FitsPresent FaceSheet.shape :=
  FaceSheet.fields_lawful.fits_record {} (by simp [FaceSheet.fields])

theorem BodySheet.fields_lawful : AreLawful BodySheet.fields where
  distinct := by decide
  puts := by simp [BodySheet.fields]
  apart := by simp [BodySheet.fields, Apart]
  ext record other h := by
    cases record
    cases other
    simpa [BodySheet.fields] using h

instance : BodySheet.codec.FitsPresent BodySheet.shape :=
  BodySheet.fields_lawful.fits_record {} (by simp [BodySheet.fields])

theorem Outfit.fields_lawful : AreLawful Outfit.fields where
  distinct := by decide
  puts := by simp [Outfit.fields]
  apart := by simp [Outfit.fields, Apart]
  ext record other h := by
    cases record
    cases other
    simpa [Outfit.fields] using h

instance : Outfit.codec.FitsPresent Outfit.shape :=
  Outfit.fields_lawful.fits_record {} (by simp [Outfit.fields])

theorem Pose.fields_lawful : AreLawful Pose.fields where
  distinct := by decide
  puts := by simp [Pose.fields]
  apart := by simp [Pose.fields, Apart]
  ext record other h := by
    cases record
    cases other
    simpa [Pose.fields] using h

instance : Pose.codec.FitsPresent Pose.shape :=
  Pose.fields_lawful.fits_record {} (by simp [Pose.fields])

theorem Character.fields_lawful : AreLawful Character.fields where
  distinct := by decide
  puts := by simp [Character.fields]
  apart := by simp [Character.fields, Apart]
  ext record other h := by
    cases record
    cases other
    simpa [Character.fields] using h

instance : Character.codec.FitsPresent Character.shape :=
  Character.fields_lawful.fits_record {} (by simp [Character.fields])

theorem Scene.fields_lawful : AreLawful Scene.fields where
  distinct := by decide
  puts := by simp [Scene.fields]
  apart := by simp [Scene.fields, Apart]
  ext record other h := by
    cases record
    cases other
    simpa [Scene.fields] using h

instance : Scene.codec.FitsPresent Scene.shape :=
  Scene.fields_lawful.fits_record {} (by simp [Scene.fields, List.lookup_cons])

theorem Background.fields_lawful : AreLawful Background.fields where
  distinct := by decide
  puts := by simp [Background.fields]
  apart := by simp [Background.fields, Apart]
  ext record other h := by
    cases record
    cases other
    simpa [Background.fields] using h

instance : Background.codec.FitsPresent Background.shape :=
  Background.fields_lawful.fits_record {} (by simp [Background.fields])

theorem DecorativeText.fields_lawful : AreLawful DecorativeText.fields where
  distinct := by decide
  puts := by simp [DecorativeText.fields]
  apart := by simp [DecorativeText.fields, Apart]
  ext record other h := by
    cases record
    cases other
    simpa [DecorativeText.fields] using h

instance : DecorativeText.codec.FitsPresent DecorativeText.shape :=
  DecorativeText.fields_lawful.fits_record {} (by simp [DecorativeText.fields])

theorem Speech.fields_lawful : AreLawful Speech.fields where
  distinct := by decide
  puts := by simp [Speech.fields]
  apart := by simp [Speech.fields, Apart]
  ext record other h := by
    cases record
    cases other
    simpa [Speech.fields] using h

instance : Speech.codec.FitsPresent Speech.shape :=
  Speech.fields_lawful.fits_record {} (by simp [Speech.fields])

theorem Panel.fields_lawful : AreLawful Panel.fields where
  distinct := by decide
  puts := by simp [Panel.fields]
  apart := by simp [Panel.fields, Apart]
  ext record other h := by
    cases record
    cases other
    simpa [Panel.fields] using h

instance : Panel.codec.FitsPresent Panel.shape :=
  Panel.fields_lawful.fits_record {} (by simp [Panel.fields, List.lookup_cons])

theorem FourPanel.fields_lawful : AreLawful FourPanel.fields where
  distinct := by decide
  puts := by simp [FourPanel.fields]
  apart := by simp [FourPanel.fields, Apart]
  ext record other h := by
    cases record
    cases other
    simpa [FourPanel.fields] using h

instance : FourPanel.codec.FitsPresent FourPanel.shape :=
  FourPanel.fields_lawful.fits_record {} (by simp [FourPanel.fields, List.lookup_cons])

theorem StyleTransform.fields_lawful : AreLawful StyleTransform.fields where
  distinct := by decide
  puts := by simp [StyleTransform.fields]
  apart := by simp [StyleTransform.fields, Apart]
  ext record other h := by
    cases record
    cases other
    simpa [StyleTransform.fields] using h

instance : StyleTransform.codec.FitsPresent StyleTransform.shape :=
  StyleTransform.fields_lawful.fits_record {} (by simp [StyleTransform.fields])

theorem InfoSection.fields_lawful : AreLawful InfoSection.fields where
  distinct := by decide
  puts := by simp [InfoSection.fields]
  apart := by simp [InfoSection.fields, Apart]
  ext record other h := by
    cases record
    cases other
    simpa [InfoSection.fields] using h

instance : InfoSection.codec.FitsPresent InfoSection.shape :=
  InfoSection.fields_lawful.fits_record {} (by simp [InfoSection.fields])

theorem Infographic.fields_lawful : AreLawful Infographic.fields where
  distinct := by decide
  puts := by simp [Infographic.fields]
  apart := by simp [Infographic.fields, Apart]
  ext record other h := by
    cases record
    cases other
    simpa [Infographic.fields] using h

instance : Infographic.codec.FitsPresent Infographic.shape :=
  Infographic.fields_lawful.fits_record {} (by simp [Infographic.fields, List.lookup_cons])

theorem State.fields_lawful : AreLawful State.fields where
  distinct := by decide
  puts := by simp [State.fields]
  apart := by simp [State.fields, Apart]
  ext record other h := by
    cases record
    cases other
    simpa [State.fields] using h

instance : State.codec.FitsPresent State.shape :=
  State.fields_lawful.fits_record {} (by simp [State.fields, List.lookup_cons])

/-- A state is read back from what is written for it, and still after any number of edits. -/
theorem State.ofJson?_edited (state : State) {document : Json}
    (hedits : ReflTransGen (Edit State.shape) (State.codec.write state) document) :
    State.codec.ofJson? document = some state :=
  Codec.ofJson?_of_edits hedits

theorem Character.edits_named :
    ReflTransGen (Edit Character.shape) (Character.codec.write { name := "Aki" })
      (.object [("mood", .text "calm"), ("name", .text "Aki")]) :=
  (edits_leaveOut (· == "name") (by simp [Character.fields])).tail
    (@Edit.add _ [] [("name", .text "Aki")] "mood" (.text "calm") (by decide +kernel))

theorem Scene.edits_characters :
    ReflTransGen (Edit Scene.shape) (Scene.codec.write { characters := [{ name := "Aki" }] })
      (.object [("characters", .list [.object [("mood", .text "calm"), ("name", .text "Aki")]])]) :=
  (edits_leaveOut (· == "characters") (by simp [Scene.fields])).trans <|
    Character.edits_named.lift (fun character => Json.object [("characters", .list [character])])
      fun _ _ hedit =>
        @Edit.member _ [] [] "characters" (.list []) _ _ (.list Character.shape)
          (by simp [Scene.fields, Codec.list]) (@Edit.item _ [] [] _ _ hedit)

/-- A scene of which only a character is told, and of the character only its name and a mood. -/
theorem State.ofJson?_scene :
    State.codec.ofJson? (.object [("scene_builder", .object [("characters",
        .list [.object [("mood", .text "calm"), ("name", .text "Aki")]])])]) =
      some { sceneBuilder := some { characters := [{ name := "Aki" }] } } :=
  State.ofJson?_edited _ <|
    (edits_leaveOut (· == "scene_builder") (by simp [State.fields])).trans <|
      Scene.edits_characters.lift (fun scene => Json.object [("scene_builder", scene)])
        fun _ _ hedit =>
          @Edit.member _ [] [] "scene_builder" .null _ _ (.optional Scene.shape)
            (by simp [State.fields, List.lookup_cons, Codec.optional]) (.present hedit)

end PromptSheet
