import PromptSheet.Document.Edit
import PromptSheet.State.Codec

/-!
The shapes of the records of a state. A field that is left out has the value of the untouched record;
a field is plain unless it is said to be a list or a record itself.
-/

namespace PromptSheet

/-- The shape of a record with this blank, given the shapes of those fields that are not plain. -/
def Shape.ofFields {σ : Type} (blank : σ) (fields : List (Field σ)) (inner : List (String × Shape)) :
    Shape :=
  .record (fields.map fun field =>
    (field.name, field.write blank, (inner.lookup field.name).getD .plain))

def FaceSheet.shape : Shape :=
  .ofFields {} FaceSheet.fields []

def BodySheet.shape : Shape :=
  .ofFields {} BodySheet.fields []

def Outfit.shape : Shape :=
  .ofFields {} Outfit.fields []

def Pose.shape : Shape :=
  .ofFields {} Pose.fields []

def Character.shape : Shape :=
  .ofFields {} Character.fields []

def Scene.shape : Shape :=
  .ofFields {} Scene.fields [("characters", .list Character.shape)]

def Background.shape : Shape :=
  .ofFields {} Background.fields []

def DecorativeText.shape : Shape :=
  .ofFields {} DecorativeText.fields []

def Speech.shape : Shape :=
  .ofFields {} Speech.fields []

def Panel.shape : Shape :=
  .ofFields {} Panel.fields [("speeches", .list Speech.shape)]

def FourPanel.shape : Shape :=
  .ofFields {} FourPanel.fields
    [("character1", Character.shape), ("character2", Character.shape),
     ("panels", .list Panel.shape)]

def StyleTransform.shape : Shape :=
  .ofFields {} StyleTransform.fields []

def InfoSection.shape : Shape :=
  .ofFields {} InfoSection.fields []

def Infographic.shape : Shape :=
  .ofFields {} Infographic.fields [("sections", .list InfoSection.shape)]

def State.shape : Shape :=
  .ofFields {} State.fields
    [("face_sheet", .optional FaceSheet.shape), ("body_sheet", .optional BodySheet.shape),
     ("outfit", .optional Outfit.shape), ("pose", .optional Pose.shape),
     ("scene_builder", .optional Scene.shape), ("background", .optional Background.shape),
     ("decorative_text", .optional DecorativeText.shape),
     ("four_panel", .optional FourPanel.shape),
     ("style_transform", .optional StyleTransform.shape),
     ("infographic", .optional Infographic.shape)]

end PromptSheet
