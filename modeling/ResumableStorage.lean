import ResumableStorage.Log.Template.Filling
import ResumableStorage.Main
import ResumableStorage.Proofs.Upload.Completions
import ResumableStorage.Proofs.Upload.OpenUploads
import ResumableStorage.Proofs.Upload.Publication
import ResumableStorage.Proofs.Upload.Resuming
import ResumableStorage.Proofs.Volume.Rounds
import ResumableStorage.Service.Disturbance
import ResumableStorage.Store.Answers
import ResumableStorage.Value.JsonReader
import ResumableStorage.Proofs.Upload.SourceLength
import ResumableStorage.Proofs.Upload.Appending
import ResumableStorage.Proofs.Volume.Confinement
import ResumableStorage.Proofs.Volume.Interleaving
import ResumableStorage.Proofs.Volume.Cleaning
import ResumableStorage.Proofs.Volume.Finishing
import ResumableStorage.Proofs.Volume.Moving
import ResumableStorage.Proofs.Volume.Reopening
import ResumableStorage.Proofs.Volume.Dropping
import ResumableStorage.Proofs.Volume.Deleting
import ResumableStorage.Proofs.Volume.Views
import ResumableStorage.Proofs.Volume.Walking
import ResumableStorage.Proofs.Volume.Descent
import ResumableStorage.Proofs.Client.Paging
import ResumableStorage.Proofs.Upload.WriteLoop
import ResumableStorage.Proofs.Client.Contract
import ResumableStorage.Proofs.Settings.Spelling
import ResumableStorage.Proofs.Log.Lines
import ResumableStorage.Proofs.Client.RangedCopies
import ResumableStorage.Proofs.Volume.Founding
