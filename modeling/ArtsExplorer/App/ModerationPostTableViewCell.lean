import ArtsExplorer.App.Decoding

/-!
# The moderation cell for posts

`ModerationPostTableViewCell` shows a pending post with its author's avatar, which it reads from the
author's document as `PostTableViewCell` does. It has no save button and no `prepareForReuse`.
-/

namespace ArtsExplorer

open Foundations

structure ModerationPostTableViewCell where
  userImageView : UIImageView := {}
  userNameText : String := "Label"
  postTitleText : String := "Label"
  postDescriptionText : String := "Label"
  postImageView : UIImageView := {}
  postCategoriesText : String := "Label"
  deriving DecidableEq

namespace ModerationPostTableViewCell

variable (cell : ModerationPostTableViewCell)

/-- `finalCategoryString`: the categories in a row, with a capital at the start. -/
def categoryString (categories : List String) : String :=
  match (", ".intercalate categories).toList with
  | [] => ""
  | first :: rest => String.ofList (first.toUpper :: rest)

/-- `configure(with:)`, with the user whose document it reads. -/
def configure (model : AEPost) : ModerationPostTableViewCell × String :=
  ({ cell with
      postImageView :=
        if model.mediaID ≠ "" then cell.postImageView.sd_setImage ("posts/" ++ model.id) none
        else cell.postImageView.setImage none
      userNameText := model.opName
      postTitleText := model.title
      postDescriptionText := model.description
      postCategoriesText := categoryString model.categories },
   model.opID)

/-- The closure of `configure(with:)`. -/
def configureReply : Option Document → Except Fault ModerationPostTableViewCell
  | some document => do
    let avatarID ← getString document "avatarID"
    let userImageView :=
      if avatarID ≠ "" then
        cell.userImageView.sd_setImage ("avatars/" ++ avatarID) (some placeholderProfile)
      else cell.userImageView.setImage (some placeholderProfile)
    return { cell with userImageView := userImageView }
  | none => .ok { cell with postTitleText := Constants.postNotFoundError }

variable {cell}

/-- The closure always goes through on the documents of users. -/
theorem configureReply_ok {document : Option Document}
    (hd : ∀ d ∈ document, d.Conforms (CollectionName.schema .users)) :
    ∃ cell', cell.configureReply document = .ok cell' := by
  cases document with
  | none => exact ⟨_, rfl⟩
  | some d =>
    obtain ⟨avatarID, havatar⟩ := @Document.Conforms.string d _ "avatarID" (hd d rfl) (by decide)
    simp only [configureReply, getString_eq_ok.2 havatar]
    exact ⟨_, rfl⟩

end ModerationPostTableViewCell

end ArtsExplorer
